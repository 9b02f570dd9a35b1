import LessonPress.Range.RangeList
import LessonPress.Json.Shape

/-!
# Line ranges as JSON

## Records of both ends

The ranges of a list are read as they stand, without checks of their order.
-/

namespace LessonPress

namespace LineRange

def toJson (range : LineRange) : Json :=
  .object [("start", .nat range.start), ("end", .nat range.stop)]

def fieldRules : List Json.FieldRule :=
  [{ name := "start" }, { name := "end" }]

def ofJson? (value : Json) : Option LineRange :=
  match Json.record fieldRules value with
  | some [start, stop] => do
      let start ← Json.required Json.asWord start
      let stop ← Json.required Json.asWord stop
      some ⟨start, stop⟩
  | _ => none

end LineRange

namespace RangeList

def toJson (ranges : RangeList) : Json :=
  Json.list LineRange.toJson ranges

def ofJson? (value : Json) : Option RangeList :=
  Json.asList LineRange.ofJson? value

end RangeList
end LessonPress

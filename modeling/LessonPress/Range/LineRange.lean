import LessonPress.Text.Digits

/-!
# Line ranges

## Inclusive spans of lines, counted from one
-/

namespace LessonPress

structure LineRange where
  start : Nat
  stop : Nat
deriving DecidableEq, Inhabited

namespace LineRange

def single (line : Nat) : LineRange :=
  ⟨line, line⟩

def contains (range other : LineRange) : Bool :=
  range.start ≤ other.start && other.stop ≤ range.stop

def overlaps (range other : LineRange) : Bool :=
  range.start ≤ other.stop && other.start ≤ range.stop

def display (range : LineRange) : List Char :=
  if range.start = range.stop then
    Text.decimal range.start
  else
    Text.decimal range.start ++ '-' :: Text.decimal range.stop

def displayString (range : LineRange) : String :=
  String.ofList range.display

end LineRange
end LessonPress

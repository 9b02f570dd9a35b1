import LessonPress.Range.LineRange
import LessonPress.Text.Digits
import LessonPress.Text.Lines

/-!
# Range lists

## Reading, checking and writing lists of line ranges

A range list is a text of items `N` or `N-M` with commas between them; blanks
may surround each item and each number.  Reading stops at the first item of
another form.  The ranges of a well-formed text are then checked in order: each
has to start at one or later, to end no earlier than it starts, and to lie after
the last range that passed.
-/

namespace LessonPress

inductive RangeError where
  | malformed (item : String)
  | zero (range : LineRange)
  | descending (range : LineRange)
  | overlap (previous next : LineRange)
  | outOfOrder (previous next : LineRange)
  | outOfBounds (range : LineRange) (lineCount : Nat)
deriving DecidableEq, Inhabited

namespace RangeError

def message : RangeError -> String
  | malformed item => "\"" ++ item ++ "\" is not a line range (expected N or N-M)"
  | zero range => "line numbers start at 1, got " ++ range.displayString
  | descending range => "range " ++ range.displayString ++ " ends before it starts"
  | overlap previous next =>
      "range " ++ next.displayString ++ " overlaps " ++ previous.displayString
  | outOfOrder previous next =>
      "range " ++ next.displayString ++ " comes after " ++ previous.displayString ++
        "; ranges must be in ascending order"
  | outOfBounds range lineCount =>
      "range " ++ range.displayString ++ " is outside the file (" ++ toString lineCount ++
        " lines)"

end RangeError

/-- Ranges in the order in which they were given. -/
abbrev RangeList := List LineRange

namespace RangeList

/-!
# Items
-/

def numberLimit : Nat := UInt64.size

def readNumber (digits : List Char) : Option Nat :=
  if digits.isEmpty || !digits.all Text.isDigit then
    none
  else
    let value := Text.decimalValue digits
    if value < numberLimit then some value else none

def itemParts (item : List Char) : List Char × List Char :=
  match Text.cutAt '-' item with
  | some (start, stop) => (Text.trim start, Text.trim stop)
  | none => (item, item)

def readItem (item : List Char) : Except RangeError LineRange :=
  let item := Text.trim item
  let parts := itemParts item
  match readNumber parts.1, readNumber parts.2 with
  | some start, some stop => .ok ⟨start, stop⟩
  | _, _ => .error (.malformed (String.ofList item))

def readItems : List (List Char) -> Except RangeError (List LineRange)
  | [] => .ok []
  | item :: rest =>
      match readItem item with
      | .error fault => .error fault
      | .ok range =>
          match readItems rest with
          | .error fault => .error fault
          | .ok ranges => .ok (range :: ranges)

/-!
# Order
-/

def orderFault (previous : Option LineRange) (range : LineRange) : Option RangeError :=
  if range.start = 0 then some (.zero range)
  else if range.stop < range.start then some (.descending range)
  else
    match previous with
    | none => none
    | some last =>
        if last.overlaps range then some (.overlap last range)
        else if range.start < last.start then some (.outOfOrder last range)
        else none

/-- The faults of ranges that follow the last one that passed. -/
def orderFaults : Option LineRange -> List LineRange -> List RangeError
  | _, [] => []
  | previous, range :: rest =>
      match orderFault previous range with
      | some fault => fault :: orderFaults previous rest
      | none => orderFaults (some range) rest

def parse (text : String) : Except (List RangeError) RangeList :=
  match readItems (Text.splitAt ',' text.toList) with
  | .error fault => .error [fault]
  | .ok ranges =>
      match orderFaults none ranges with
      | [] => .ok ranges
      | faults => .error faults

/-!
# Files and coverage
-/

/-- The lines of a whole file; an empty file still has a first line. -/
def whole (lineCount : Nat) : RangeList :=
  [⟨1, max lineCount 1⟩]

def outOfBounds (ranges : RangeList) (lineCount : Nat) : List RangeError :=
  (ranges.filter fun range => lineCount < range.stop).map
    fun range => .outOfBounds range lineCount

/-- Whether a single range of the list contains the given one. -/
def covers (ranges : RangeList) (range : LineRange) : Bool :=
  ranges.any fun outer => outer.contains range

def display (ranges : RangeList) : List Char :=
  Text.joinWith [','] (ranges.map LineRange.display)

def displayString (ranges : RangeList) : String :=
  String.ofList (display ranges)

end RangeList
end LessonPress

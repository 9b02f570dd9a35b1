import LessonPress.Binary64.Basic

/-!
# JSON values

## Values as they stand in a text

An object keeps its fields in the order in which they are written, repetitions
included.  A number is a whole number of at most 64 bits or a binary floating
point number; the two are told apart because whole-number fields refuse the
second kind.
-/

namespace LessonPress

inductive Json where
  | null
  | bool (value : Bool)
  | int (value : Int)
  | float (value : Binary64)
  | string (value : String)
  | array (items : List Json)
  | object (fields : List (String × Json))
deriving Inhabited

namespace Json

def nat (n : Nat) : Json :=
  .int n

def optional (encode : alpha -> Json) : Option alpha -> Json
  | none => .null
  | some value => encode value

def list (encode : alpha -> Json) (values : List alpha) : Json :=
  .array (values.map encode)

def strings (values : List String) : Json :=
  list .string values

/-- The value of the last field with the given name. -/
def field? (name : String) : Json -> Option Json
  | .object fields => (fields.reverse.find? fun entry => entry.1 == name).map (·.2)
  | _ => none

end Json
end LessonPress

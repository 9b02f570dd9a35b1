import LessonPress.Json.Basic

/-!
# Reading typed values out of JSON

## Records, variants and plain values

A record is an object or an array of its fields in order.  In an object, fields
of other names are passed over and a repeated field is refused.  A variant names
itself by a tag: inside its record, beside its content, or alone.
-/

namespace LessonPress
namespace Json

/-!
# Plain values
-/

def asString : Json -> Option String
  | .string value => some value
  | _ => none

def asBool : Json -> Option Bool
  | .bool value => some value
  | _ => none

def asNat (limit : Nat) : Json -> Option Nat
  | .int (.ofNat n) => if n < limit then some n else none
  | _ => none

def asWord (value : Json) : Option Nat :=
  asNat UInt64.size value

def asUInt64 (value : Json) : Option UInt64 :=
  (asWord value).map UInt64.ofNat

def asFloat : Json -> Option Binary64
  | .int (.ofNat n) => some (Binary64.ofNat n)
  | .int (.negSucc n) => some (Binary64.ofNat (n + 1)).neg
  | .float value => some value
  | _ => none

def allSome : List (Option alpha) -> Option (List alpha)
  | [] => some []
  | none :: _ => none
  | some value :: rest => (allSome rest).map (value :: ·)

def asList (decode : Json -> Option alpha) : Json -> Option (List alpha)
  | .array items => allSome (items.map decode)
  | _ => none

def asOptional (decode : Json -> Option alpha) : Json -> Option (Option alpha)
  | .null => some none
  | value => (decode value).map some

/-!
# Records
-/

/-- A field of a record, and whether an array may end before it. -/
structure FieldRule where
  name : String
  mayEnd : Bool := false

def occurrences (name : String) (fields : List (String × Json)) : Nat :=
  fields.countP fun entry => entry.1 == name

def lookUp (name : String) (fields : List (String × Json)) : Option Json :=
  (fields.find? fun entry => entry.1 == name).map (·.2)

def positional : List FieldRule -> List Json -> Option (List (Option Json))
  | [], [] => some []
  | [], _ :: _ => none
  | rule :: rules, [] =>
      if rule.mayEnd then (positional rules []).map (none :: ·) else none
  | _ :: rules, item :: items => (positional rules items).map (some item :: ·)

def record (rules : List FieldRule) : Json -> Option (List (Option Json))
  | .object fields =>
      if rules.any fun rule => 1 < occurrences rule.name fields then
        none
      else
        some (rules.map fun rule => lookUp rule.name fields)
  | .array items => positional rules items
  | _ => none

def required (decode : Json -> Option alpha) : Option Json -> Option alpha
  | none => none
  | some value => decode value

def nullable (decode : Json -> Option alpha) : Option Json -> Option (Option alpha)
  | none => some none
  | some value => asOptional decode value

def defaulted (default : alpha) (decode : Json -> Option alpha) :
    Option Json -> Option alpha
  | none => some default
  | some value => decode value

/-!
# Variants
-/

/-- A variant without content: its name, alone or as the only field with null. -/
def asVariant : Json -> Option String
  | .string name => some name
  | .object [(name, .null)] => some name
  | _ => none

def tagged (tag : String) : Json -> Option (String × Json)
  | .object fields =>
      if occurrences tag fields = 1 then
        ((lookUp tag fields).bind asString).map fun name =>
          (name, .object (fields.filter fun entry => entry.1 != tag))
      else
        none
  | .array (.string name :: rest) => some (name, .array rest)
  | _ => none

def adjacent (tag content : String) : Json -> Option (String × Option Json)
  | .object fields =>
      if occurrences tag fields = 1 ∧ occurrences content fields ≤ 1 then
        ((lookUp tag fields).bind asVariant).map fun name => (name, lookUp content fields)
      else
        none
  | .array [name, value] => (asVariant name).map fun name => (name, some value)
  | _ => none

/-!
# Nesting
-/

mutual

def height : Json -> Nat
  | .array items => heightItems items + 1
  | .object fields => heightFields fields + 1
  | _ => 1

def heightItems : List Json -> Nat
  | [] => 0
  | item :: more => max item.height (heightItems more)

def heightFields : List (String × Json) -> Nat
  | [] => 0
  | (_, value) :: more => max value.height (heightFields more)

end

end Json
end LessonPress

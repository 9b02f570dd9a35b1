import LessonPress.Json.Shape

/-!
# Buttons

## Actions offered next to an excerpt
-/

namespace LessonPress

inductive Button where
  | problem
  | solution
  | playground
deriving DecidableEq, Inhabited

namespace Button

def name : Button -> String
  | problem => "problem"
  | solution => "solution"
  | playground => "playground"

def ofName? (text : String) : Option Button :=
  if text = "problem" then some problem
  else if text = "solution" then some solution
  else if text = "playground" then some playground
  else none

theorem ofName?_name (button : Button) : ofName? button.name = some button := by
  cases button <;> rfl

def unknownMessage (text : String) : String :=
  "unknown button \"" ++ text ++ "\" (expected problem, solution or playground)"

def toJson (button : Button) : Json :=
  .string button.name

def ofJson? (value : Json) : Option Button :=
  (Json.asVariant value).bind ofName?

end Button
end LessonPress

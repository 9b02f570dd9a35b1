import LessonPress.Document.Fence

/-!
# Kinds of lines

## What a line starts when it does not belong to a block yet
-/

namespace LessonPress

inductive LineKind where
  | blank
  | fence (fence : Fence)
  | heading (depth : Nat) (text : List Char)
  | thematicBreak
  | element
  | html
  | text
deriving DecidableEq, Inhabited

namespace LineKind

open Text

def trimEndOf (c : Char) (text : List Char) : List Char :=
  (text.reverse.dropWhile (· == c)).reverse

/-- The depth and the text of a heading: one to six number signs, and a blank
before any text. -/
def headingOf? (line : List Char) : Option (Nat × List Char) :=
  let depth := (line.takeWhile (· == '#')).length
  let rest := line.dropWhile (· == '#')
  if depth = 0 ∨ 6 < depth then
    none
  else
    match rest with
    | [] => some (depth, [])
    | c :: _ => if isBlank c then some (depth, trimEnd (trimEndOf '#' (trim rest))) else none

/-- Three or more of one of the characters `-`, `*` and `_`, with spaces between. -/
def isThematicBreak (line : List Char) : Bool :=
  match line with
  | [] => false
  | marker :: _ =>
      (marker == '-' || marker == '*' || marker == '_') &&
        3 ≤ line.count marker && line.all fun c => c == marker || c == ' '

def isUpper (c : Char) : Bool :=
  'A' ≤ c && c ≤ 'Z'

def isLower (c : Char) : Bool :=
  'a' ≤ c && c ≤ 'z'

def startsElement (line : List Char) : Bool :=
  match line with
  | '<' :: c :: _ => isUpper c
  | _ => false

def startsHtml (line : List Char) : Bool :=
  match line with
  | '<' :: c :: _ => isLower c || c == '/' || c == '!'
  | _ => false

def of (line : Line) : LineKind :=
  let body := trim line
  if body.isEmpty then
    .blank
  else
    match Fence.ofLine? line with
    | some opened => .fence opened
    | none =>
        match headingOf? body with
        | some (depth, title) => .heading depth title
        | none =>
            if isThematicBreak body then .thematicBreak
            else if startsElement body then .element
            else if startsHtml body then .html
            else .text

def continuesParagraph (line : Line) : Bool :=
  match of line with
  | .html => true
  | .text => true
  | _ => false

end LineKind
end LessonPress

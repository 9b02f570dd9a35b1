import LessonPress.Text.Lines

/-!
# Code fences

## Lines that open and close a block of code

A fence is a run of at least three backticks or tildes, indented by at most three
bytes.  It is closed by a line of nothing but a run of the same character that is
at least as long.
-/

namespace LessonPress

structure Fence where
  marker : Char
  length : Nat
  indent : Nat
  info : List Char
deriving DecidableEq, Inhabited

namespace Fence

open Text

/-- The fence that a line opens.  A backtick fence has no backtick in its info. -/
def ofLine? (line : Line) : Option Fence :=
  let indent := byteLength (line.takeWhile isBlank)
  match trimStart line with
  | [] => none
  | marker :: rest =>
      let length := (rest.takeWhile (· == marker)).length + 1
      let info := trim (rest.dropWhile (· == marker))
      if 3 < indent ∨ (marker ≠ '`' ∧ marker ≠ '~') ∨ length < 3 then none
      else if marker = '`' ∧ info.contains '`' then none
      else some ⟨marker, length, indent, info⟩

def closes (fence : Fence) (line : Line) : Bool :=
  let body := trim line
  fence.length ≤ (body.takeWhile (· == fence.marker)).length &&
    isBlankLine (body.dropWhile (· == fence.marker))

def bodyLength (fence : Fence) (following : List Line) : Option Nat :=
  following.findIdx? fence.closes

def unindent (fence : Fence) (line : Line) : Line :=
  line.drop (min (line.takeWhile (· == ' ')).length fence.indent)

def lang (fence : Fence) : Option String :=
  let word := fence.info.takeWhile fun c => !isBlank c
  if word.isEmpty then none else some (String.ofList word)

def extra (fence : Fence) : Option String :=
  let rest := trim (fence.info.dropWhile fun c => !isBlank c)
  if rest.isEmpty then none else some (String.ofList rest)

end Fence
end LessonPress

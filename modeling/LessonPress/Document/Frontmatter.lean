import LessonPress.Document.ParseError
import LessonPress.Map.Sorted
import LessonPress.Text.Lines

/-!
# Frontmatter

## Values at the head of a document

Frontmatter starts on the first line with three hyphens and ends at the next line
of three hyphens or three dots.  Only plain `key: value` lines at the margin
count; blank lines, list items, comments and indented lines are passed over.
-/

namespace LessonPress
namespace Frontmatter

open Text

def opens (line : Line) : Bool :=
  trimEnd line == ['-', '-', '-']

def closes (line : Line) : Bool :=
  trimEnd line == ['-', '-', '-'] || trimEnd line == ['.', '.', '.']

def isPassedOver (line : Line) : Bool :=
  match line with
  | [] => true
  | c :: _ => isBlank c || c == '-' || c == '#' || isBlankLine line

def betweenQuotes (quote : Char) (value : List Char) : Option (List Char) :=
  match value with
  | first :: rest =>
      match rest.reverse with
      | last :: inner => if first = quote ∧ last = quote then some inner.reverse else none
      | [] => none
  | [] => none

def unquote (value : List Char) : List Char :=
  match betweenQuotes '"' value with
  | some inner => inner
  | none => (betweenQuotes '\'' value).getD value

def entryOf (line : Line) : Option (String × String) :=
  if isPassedOver line then
    none
  else
    match cutAt ':' line with
    | none => none
    | some (key, value) =>
        if isBlankLine key then
          none
        else
          some (String.ofList (trim key), String.ofList (unquote (trim value)))

def read (document : List Line) : Except ParseError (SortedMap String × Nat) :=
  match document with
  | [] => .ok (.empty, 0)
  | first :: rest =>
      if opens first then
        match rest.findIdx? closes with
        | none => .error ⟨1, .unterminatedFrontmatter⟩
        | some count => .ok (.ofList ((rest.take count).filterMap entryOf), count + 2)
      else
        .ok (.empty, 0)

end Frontmatter
end LessonPress

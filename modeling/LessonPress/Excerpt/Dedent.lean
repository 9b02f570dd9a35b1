import LessonPress.Text.Lines

/-!
# Common indentation

## Removing the indentation that all lines share

The indentation of a line is its run of spaces and tabs, compared literally.
Blank lines share any indentation and come out empty.
-/

namespace LessonPress
namespace Excerpt

open Text

def isIndent (c : Char) : Bool :=
  c == ' ' || c == '\t'

def indentOf (line : Line) : List Char :=
  line.takeWhile isIndent

def commonPrefix : List Char -> List Char -> List Char
  | a :: left, b :: right => if a = b then a :: commonPrefix left right else []
  | _, _ => []

def commonPrefixOf : List (List Char) -> List Char
  | [] => []
  | first :: rest => rest.foldl commonPrefix first

def sharedIndent (block : List Line) : List Char :=
  commonPrefixOf ((block.filter fun line => !isBlankLine line).map indentOf)

def unindent (indent : List Char) (line : Line) : Line :=
  if isBlankLine line then [] else line.drop indent.length

def dedentLines (block : List Line) : List Line :=
  block.map (unindent (sharedIndent block))

def dedent (block : List Line) : List Char :=
  joinLines (dedentLines block)

end Excerpt
end LessonPress

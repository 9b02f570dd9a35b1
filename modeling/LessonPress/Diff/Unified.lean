import LessonPress.Diff.Basic
import LessonPress.Text.Lines

/-!
# Unified diffs

## Reading blocks out of diff text

Where a text has hunk headers, only the lines inside hunks are read; else every
line that starts with a plus, a minus or a space is.  An adjacent pair of `---` and
`+++` lines is the header of a file.
-/

namespace LessonPress

namespace DiffLine

def plain (kind : ChangeKind) (text : List Char) : DiffLine :=
  let fragments := if text.isEmpty then [] else [.text (.plain (String.ofList text))]
  ⟨kind, fragments, "\n"⟩

end DiffLine

namespace DiffBlock

def ofLines (lines : List (ChangeKind × List Char)) (language : Option String) : DiffBlock where
  hasAdditions := lines.any fun line => line.1 = .add
  hasRemovals := lines.any fun line => line.1 = .remove
  language := language
  lines := lines.map fun line => .plain line.1 line.2

end DiffBlock

namespace Unified

open Text

def isHunkHeader (line : Line) : Bool :=
  startsWith ['@', '@'] line

def isPreamble (line : Line) : Bool :=
  startsWith "diff ".toList line || startsWith "index ".toList line

def isOldHeader (line : Line) : Bool :=
  startsWith "--- ".toList line

def isNewHeader (line : Line) : Bool :=
  startsWith "+++ ".toList line

def readLine (line : Line) : Option (ChangeKind × List Char) :=
  match line with
  | [] => some (.context, [])
  | '+' :: text => some (.add, text)
  | '-' :: text => some (.remove, text)
  | ' ' :: text => some (.context, text)
  | _ => none

def isPassedOver (hasHunks inHunk : Bool) (line : Line) : Bool :=
  !inHunk || startsWith ['\\'] line ||
    (!hasHunks && (isNewHeader line || isOldHeader line))

/-- The lines of all hunks; `inHunk` tells whether the first line is inside one. -/
def readLines (hasHunks : Bool) : Bool -> List Line -> List (ChangeKind × List Char)
  | _, [] => []
  | inHunk, line :: rest =>
      if isHunkHeader line then
        readLines hasHunks true rest
      else if isPreamble line then
        readLines hasHunks (!hasHunks) rest
      else
        let own := if isPassedOver hasHunks inHunk line then [] else (readLine line).toList
        match rest with
        | [] => own
        | next :: more =>
            if isOldHeader line && isNewHeader next then
              readLines hasHunks (!hasHunks) more
            else
              own ++ readLines hasHunks inHunk (next :: more)

end Unified

namespace DiffBlock

def ofUnified (diff : String) (language : Option String) : DiffBlock :=
  let lines := Text.linesOf diff
  let hasHunks := lines.any Unified.isHunkHeader
  ofLines (Unified.readLines hasHunks (!hasHunks) lines) language

end DiffBlock
end LessonPress

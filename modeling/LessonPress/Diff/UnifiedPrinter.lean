import LessonPress.Diff.Unified

/-!
# Printing unified diffs

## Sections of files and their hunks
-/

namespace LessonPress

structure Hunk where
  header : List Char
  lines : List (ChangeKind × List Char)
deriving DecidableEq, Inhabited

/-- The changes of one file.  The two lines in front of the header pair may be
missing. -/
structure FileSection where
  diffLine : Option (List Char)
  indexLine : Option (List Char)
  oldName : List Char
  newName : List Char
  hunks : List Hunk
deriving DecidableEq, Inhabited

namespace ChangeKind

def sign : ChangeKind -> Char
  | add => '+'
  | remove => '-'
  | context => ' '

end ChangeKind

namespace Hunk

def print (hunk : Hunk) : List Text.Line :=
  (['@', '@'] ++ hunk.header) :: hunk.lines.map fun line => line.1.sign :: line.2

end Hunk

namespace FileSection

def printOptional (word : String) : Option (List Char) -> List Text.Line
  | none => []
  | some text => [word.toList ++ text]

def print (changes : FileSection) : List Text.Line :=
  printOptional "diff " changes.diffLine ++ printOptional "index " changes.indexLine ++
    ["--- ".toList ++ changes.oldName, "+++ ".toList ++ changes.newName] ++
    changes.hunks.flatMap Hunk.print

def printAll (sections : List FileSection) : List Char :=
  (sections.flatMap print).flatMap fun line => line ++ ['\n']

end FileSection
end LessonPress

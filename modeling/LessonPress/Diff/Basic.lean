/-!
# Rendered diffs

## Blocks of lines, cut into styled pieces of text

A line is a list of fragments: pieces of text with an optional style, and marks
around some of them.  What a reader sees of a line is its view, the sequence of
its characters with their styles.
-/

namespace LessonPress

structure StyledText where
  text : String
  style : Option String
deriving DecidableEq, Inhabited

namespace StyledText

def plain (text : String) : StyledText :=
  ⟨text, none⟩

def withText (piece : StyledText) (text : List Char) : StyledText :=
  { piece with text := String.ofList text }

def length (piece : StyledText) : Nat :=
  piece.text.toList.length

def view (piece : StyledText) : List (Char × Option String) :=
  piece.text.toList.map fun c => (c, piece.style)

end StyledText

inductive InlineMark where
  | added
  | removed
deriving DecidableEq, Inhabited

inductive Fragment where
  | text (piece : StyledText)
  | mark (mark : InlineMark) (pieces : List StyledText)
deriving DecidableEq, Inhabited

namespace Fragment

def pieces : Fragment -> List StyledText
  | text piece => [piece]
  | mark _ pieces => pieces

def isMark : Fragment -> Bool
  | text _ => false
  | mark _ _ => true

def markedText (kind : InlineMark) : Fragment -> Option String
  | text _ => none
  | mark own pieces => if own = kind then some (String.join (pieces.map StyledText.text)) else none

end Fragment

inductive ChangeKind where
  | add
  | remove
  | context
deriving DecidableEq, Inhabited

structure DiffLine where
  kind : ChangeKind
  fragments : List Fragment
  terminator : String
deriving DecidableEq, Inhabited

namespace DiffLine

def pieces (line : DiffLine) : List StyledText :=
  line.fragments.flatMap Fragment.pieces

def characters (line : DiffLine) : List Char :=
  line.pieces.flatMap fun piece => piece.text.toList

def plainText (line : DiffLine) : String :=
  String.ofList line.characters

def view (line : DiffLine) : List (Char × Option String) :=
  line.pieces.flatMap StyledText.view

def hasMarks (line : DiffLine) : Bool :=
  line.fragments.any Fragment.isMark

def markedTexts (line : DiffLine) (kind : InlineMark) : List String :=
  line.fragments.filterMap (Fragment.markedText kind)

end DiffLine

structure DiffBlock where
  hasAdditions : Bool
  hasRemovals : Bool
  language : Option String
  lines : List DiffLine
deriving DecidableEq, Inhabited

namespace DiffBlock

def isMixed (block : DiffBlock) : Bool :=
  block.hasAdditions && block.hasRemovals

end DiffBlock
end LessonPress

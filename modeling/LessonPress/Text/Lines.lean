import LessonPress.Text.Blank

/-!
# Lines

## Splitting a text into lines and joining lines back

A line ends at a line feed, which takes a carriage return right before it
along.  A carriage return anywhere else is a character of its line, and no line
follows a line feed at the very end of the text.
-/

namespace LessonPress
namespace Text

def lines : List Char -> List Line
  | [] => []
  | '\n' :: rest => [] :: lines rest
  | '\r' :: '\n' :: rest => [] :: lines rest
  | c :: rest =>
      match lines rest with
      | [] => [[c]]
      | line :: following => (c :: line) :: following

def linesOf (text : String) : List Line :=
  lines text.toList

def joinLines : List Line -> List Char
  | [] => []
  | [line] => line
  | line :: following => line ++ '\n' :: joinLines following

/-- Drops the carriage return of each pair of carriage return and line feed. -/
def normalizeNewlines : List Char -> List Char
  | [] => []
  | '\r' :: '\n' :: rest => '\n' :: normalizeNewlines rest
  | c :: rest => c :: normalizeNewlines rest

/-!
# Splitting at a separator
-/

def splitAt (separator : Char) : List Char -> List (List Char)
  | [] => [[]]
  | c :: rest =>
      if c = separator then
        [] :: splitAt separator rest
      else
        match splitAt separator rest with
        | [] => [[c]]
        | piece :: following => (c :: piece) :: following

def cutAt (separator : Char) : List Char -> Option (List Char × List Char)
  | [] => none
  | c :: rest =>
      if c = separator then
        some ([], rest)
      else
        (cutAt separator rest).map fun (before, after) => (c :: before, after)

def joinWith (separator : List Char) : List (List Char) -> List Char
  | [] => []
  | [piece] => piece
  | piece :: following => piece ++ separator ++ joinWith separator following

def stripEnding (ending text : List Char) : Option (List Char) :=
  if ending.isSuffixOf text then
    some (text.take (text.length - ending.length))
  else
    none

def startsWith (opening text : List Char) : Bool :=
  opening.isPrefixOf text

def endsWith (ending text : List Char) : Bool :=
  ending.isSuffixOf text

def byteLength : List Char -> Nat
  | [] => 0
  | c :: rest => c.utf8Size + byteLength rest

/-!
# Laws of splitting and joining
-/

theorem joinWith_cons_cons (separator piece next : List Char) (more : List (List Char)) :
    joinWith separator (piece :: next :: more) =
      piece ++ separator ++ joinWith separator (next :: more) :=
  rfl

theorem splitAt_ne_nil (separator : Char) (text : List Char) :
    splitAt separator text ≠ [] := by
  induction text with
  | nil =>
      simp [splitAt]
  | cons c rest ih =>
      by_cases hc : c = separator
      · simp [splitAt, hc]
      · cases hsplit : splitAt separator rest with
        | nil => exact absurd hsplit ih
        | cons piece following => simp [splitAt, hc, hsplit]

theorem joinWith_splitAt (separator : Char) (text : List Char) :
    joinWith [separator] (splitAt separator text) = text := by
  induction text with
  | nil =>
      rfl
  | cons c rest ih =>
      cases hsplit : splitAt separator rest with
      | nil => exact absurd hsplit (splitAt_ne_nil separator rest)
      | cons piece following =>
          rw [hsplit] at ih
          by_cases hc : c = separator
          · simp [splitAt, hc, joinWith, hsplit, ih]
          · cases following with
            | nil => simpa [splitAt, hc, joinWith, hsplit] using ih
            | cons next more => simpa [splitAt, hc, joinWith, hsplit] using ih

end Text
end LessonPress

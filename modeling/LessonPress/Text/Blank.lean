/-!
# Blank characters

## The class and the trimming of text

The blank characters are the twenty-five code points with the property
White_Space.  Lines, attribute values and range lists are trimmed of them, and
a line of nothing else is a blank line.
-/

namespace LessonPress
namespace Text

/-- A line of text, without its line ending. -/
abbrev Line := List Char

def isBlank (c : Char) : Bool :=
  let n := c.toNat
  (9 ≤ n && n ≤ 13) || n == 32 || n == 0x85 || n == 0xA0 || n == 0x1680 ||
    (0x2000 ≤ n && n ≤ 0x200A) || n == 0x2028 || n == 0x2029 || n == 0x202F ||
    n == 0x205F || n == 0x3000

def trimStart (text : List Char) : List Char :=
  text.dropWhile isBlank

def trimEnd (text : List Char) : List Char :=
  (text.reverse.dropWhile isBlank).reverse

def trim (text : List Char) : List Char :=
  trimEnd (trimStart text)

def isBlankLine (line : Line) : Bool :=
  line.all isBlank

def trimmed (text : String) : String :=
  String.ofList (trim text.toList)

end Text
end LessonPress

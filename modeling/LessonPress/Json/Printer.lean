import LessonPress.Json.Basic
import LessonPress.Binary64.Decimal
import LessonPress.Text.Digits
import LessonPress.Text.Quoted

/-!
# Compact JSON text

## Writing a value without any white space

In a string the quotation mark, the backslash and the characters below the space
are escaped, five of them by a letter and the others by their code point; all
other characters stand for themselves.
-/

namespace LessonPress
namespace Json

def escape (c : Char) : List Char :=
  match c with
  | '"' => ['\\', '"']
  | '\\' => ['\\', '\\']
  | '\x08' => ['\\', 'b']
  | '\t' => ['\\', 't']
  | '\n' => ['\\', 'n']
  | '\x0c' => ['\\', 'f']
  | '\r' => ['\\', 'r']
  | _ =>
      if c.toNat < 32 then
        ['\\', 'u', '0', '0', Text.hexDigit (c.toNat / 16), Text.hexDigit (c.toNat % 16)]
      else
        [c]

def escapeAll (text : List Char) : List Char :=
  text.flatMap escape

def printString (value : String) : List Char :=
  '"' :: escapeAll value.toList ++ ['"']

def printInt (value : Int) : List Char :=
  match value with
  | .ofNat n => Text.decimal n
  | .negSucc n => '-' :: Text.decimal (n + 1)

mutual

def print : Json -> List Char
  | .null => ['n', 'u', 'l', 'l']
  | .bool true => ['t', 'r', 'u', 'e']
  | .bool false => ['f', 'a', 'l', 's', 'e']
  | .int value => printInt value
  | .float value => value.toText
  | .string value => printString value
  | .array items => '[' :: printItems items
  | .object fields => '\x7b' :: printFields fields

def printItems : List Json -> List Char
  | [] => [']']
  | [item] => print item ++ [']']
  | item :: next :: more => print item ++ ',' :: printItems (next :: more)

def printFields : List (String × Json) -> List Char
  | [] => ['\x7d']
  | [(name, value)] => printString name ++ ':' :: print value ++ ['\x7d']
  | (name, value) :: next :: more =>
      printString name ++ ':' :: print value ++ ',' :: printFields (next :: more)

end

def toText (value : Json) : String :=
  String.ofList value.print

end Json
end LessonPress

import LessonPress.Json.Basic
import LessonPress.Binary64.Decimal
import LessonPress.Text.Digits

/-!
# Reading JSON text

## One value and nothing but blanks around it

The reader takes the strict grammar: no comments, no trailing commas, no
control characters inside strings, and escaped surrogates in pairs only.  Every
step of the recursion takes one from a budget that exceeds the length of the
text.
-/

namespace LessonPress
namespace Json

open Text

def isGap (c : Char) : Bool :=
  c == ' ' || c == '\t' || c == '\n' || c == '\r'

def skipGap (text : List Char) : List Char :=
  text.dropWhile isGap

/-!
# Strings
-/

def hexValue (c : Char) : Option Nat :=
  let n := c.toNat
  if 48 ≤ n ∧ n ≤ 57 then some (n - 48)
  else if 97 ≤ n ∧ n ≤ 102 then some (n - 87)
  else if 65 ≤ n ∧ n ≤ 70 then some (n - 55)
  else none

def hexUnit (a b c d : Char) : Option Nat :=
  match hexValue a, hexValue b, hexValue c, hexValue d with
  | some a, some b, some c, some d => some (((a * 16 + b) * 16 + c) * 16 + d)
  | _, _, _, _ => none

def letterEscape (c : Char) : Option Char :=
  match c with
  | '"' => some '"'
  | '\\' => some '\\'
  | '/' => some '/'
  | 'b' => some '\x08'
  | 'f' => some '\x0c'
  | 'n' => some '\n'
  | 'r' => some '\r'
  | 't' => some '\t'
  | _ => none

def pairedCharacter (high low : Nat) : Option Char :=
  if 0xD800 ≤ high ∧ high < 0xDC00 ∧ 0xDC00 ≤ low ∧ low < 0xE000 then
    some (Char.ofNat (0x10000 + (high - 0xD800) * 0x400 + (low - 0xDC00)))
  else
    none

def readString : List Char -> Option (List Char × List Char)
  | [] => none
  | '"' :: rest => some ([], rest)
  | '\\' :: 'u' :: a :: b :: c :: d :: rest =>
      match hexUnit a b c d with
      | none => none
      | some unit =>
          if unit < 0xD800 ∨ 0xDFFF < unit then
            (readString rest).map fun (tail, after) => (Char.ofNat unit :: tail, after)
          else
            match rest with
            | '\\' :: 'u' :: e :: f :: g :: h :: rest =>
                match (hexUnit e f g h).bind (pairedCharacter unit) with
                | none => none
                | some character =>
                    (readString rest).map fun (tail, after) => (character :: tail, after)
            | _ => none
  | '\\' :: c :: rest =>
      match letterEscape c with
      | none => none
      | some character =>
          (readString rest).map fun (tail, after) => (character :: tail, after)
  | c :: rest =>
      if c.toNat < 32 ∨ c = '\\' then
        none
      else
        (readString rest).map fun (tail, after) => (c :: tail, after)

/-!
# Numbers

A whole number without fraction and exponent that fits into 64 bits stays whole.
The digits of any other number are gathered while they fit into 64 bits: digits
before the point that do not fit count as powers of ten, and digits after the
point that do not fit are dropped.
-/

def wordLimit : Nat := UInt64.size

/-- Gathers digits while they fit; the rest starts with the first digit that
does not. -/
def gather : Nat -> List Char -> Nat × List Char
  | significand, [] => (significand, [])
  | significand, c :: rest =>
      if significand * 10 + digitValue c < wordLimit then
        gather (significand * 10 + digitValue c) rest
      else
        (significand, c :: rest)

/-- The powers of ten of a written exponent are cut at this size. -/
def exponentLimit : Nat := Nat.pow 2 31

def decimalNumber (negative : Bool) (whole fraction : List Char)
    (exponent : Bool × List Char) : Option Json :=
  let (significand, spill) := gather 0 whole
  let (significand, unused) := gather significand fraction
  let start : Int := (spill.length : Int) - ((fraction.length : Int) - unused.length)
  let size := decimalValue exponent.2
  if exponentLimit ≤ size then
    if significand = 0 ∨ exponent.1 then some (.float (Binary64.zero negative)) else none
  else
    let power := if exponent.1 then start - size else start + size
    (Binary64.ofDecimal negative significand power).map .float

def wholeNumber (negative : Bool) (digits : List Char) : Option Json :=
  let value := decimalValue digits
  if !negative ∧ value < wordLimit then some (.int value)
  else if negative ∧ 0 < value ∧ value ≤ Nat.pow 2 63 then some (.int (-(value : Int)))
  else decimalNumber negative digits [] (false, [])

def digitRun (text : List Char) : List Char × List Char :=
  (text.takeWhile isDigit, text.dropWhile isDigit)

def exponentSign : List Char -> Bool × List Char
  | '-' :: rest => (true, rest)
  | '+' :: rest => (false, rest)
  | rest => (false, rest)

def readExponent : List Char -> Option ((Bool × List Char) × List Char)
  | [] => some ((false, []), [])
  | c :: rest =>
      if c = 'e' ∨ c = 'E' then
        let (sign, rest) := exponentSign rest
        let (digits, after) := digitRun rest
        if digits.isEmpty then none else some ((sign, digits), after)
      else
        some ((false, []), c :: rest)

def readDigits (negative : Bool) (text : List Char) : Option (Json × List Char) :=
  let (whole, rest) := digitRun text
  if whole.isEmpty ∨ (whole.head? = some '0' ∧ 1 < whole.length) then
    none
  else
    match rest with
    | '.' :: rest =>
        let (fraction, rest) := digitRun rest
        if fraction.isEmpty then
          none
        else
          match readExponent rest with
          | none => none
          | some (exponent, after) =>
              (decimalNumber negative whole fraction exponent).map (·, after)
    | rest =>
        match readExponent rest with
        | none => none
        | some ((_, []), after) => (wholeNumber negative whole).map (·, after)
        | some (exponent, after) =>
            (decimalNumber negative whole [] exponent).map (·, after)

def readNumber : List Char -> Option (Json × List Char)
  | '-' :: rest => readDigits true rest
  | text => readDigits false text

/-!
# Values
-/

mutual

def readValue : Nat -> List Char -> Option (Json × List Char)
  | 0, _ => none
  | budget + 1, text =>
      match skipGap text with
      | '"' :: rest =>
          (readString rest).map fun (value, after) => (.string (String.ofList value), after)
      | '[' :: rest =>
          match skipGap rest with
          | ']' :: after => some (.array [], after)
          | rest => (readItems budget rest).map fun (items, after) => (.array items, after)
      | '\x7b' :: rest =>
          match skipGap rest with
          | '\x7d' :: after => some (.object [], after)
          | rest => (readFields budget rest).map fun (fields, after) => (.object fields, after)
      | 'n' :: 'u' :: 'l' :: 'l' :: after => some (.null, after)
      | 't' :: 'r' :: 'u' :: 'e' :: after => some (.bool true, after)
      | 'f' :: 'a' :: 'l' :: 's' :: 'e' :: after => some (.bool false, after)
      | rest => readNumber rest

def readItems : Nat -> List Char -> Option (List Json × List Char)
  | 0, _ => none
  | budget + 1, text =>
      match readValue budget text with
      | none => none
      | some (item, rest) =>
          match skipGap rest with
          | ']' :: after => some ([item], after)
          | ',' :: rest =>
              (readItems budget rest).map fun (items, after) => (item :: items, after)
          | _ => none

def readFields : Nat -> List Char -> Option (List (String × Json) × List Char)
  | 0, _ => none
  | budget + 1, text =>
      match skipGap text with
      | '"' :: rest =>
          match readString rest with
          | none => none
          | some (name, rest) =>
              match skipGap rest with
              | ':' :: rest =>
                  match readValue budget rest with
                  | none => none
                  | some (value, rest) =>
                      match skipGap rest with
                      | '\x7d' :: after => some ([(String.ofList name, value)], after)
                      | ',' :: rest =>
                          (readFields budget rest).map fun (fields, after) =>
                            ((String.ofList name, value) :: fields, after)
                      | _ => none
              | _ => none
      | _ => none

end

def read? (text : List Char) : Option Json :=
  match readValue (2 * text.length + 2) text with
  | some (value, rest) => if (skipGap rest).isEmpty then some value else none
  | none => none

def ofText? (text : String) : Option Json :=
  read? text.toList

end Json
end LessonPress

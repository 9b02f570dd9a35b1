/-!
# UTF-8

## Reading bytes that need not be text

Where bytes are no well-formed text, each longest run of bytes that could have
started a character is replaced by the replacement character.
-/

namespace LessonPress
namespace Text

def replacement : Char := Char.ofNat 0xFFFD

def isContinuation (byte : UInt8) : Bool :=
  0x80 ≤ byte && byte ≤ 0xBF

def continuationBits (byte : UInt8) : Nat :=
  byte.toNat % 64

def secondOfThree (first second : UInt8) : Bool :=
  if first = 0xE0 then 0xA0 ≤ second && second ≤ 0xBF
  else if first = 0xED then 0x80 ≤ second && second ≤ 0x9F
  else isContinuation second

def secondOfFour (first second : UInt8) : Bool :=
  if first = 0xF0 then 0x90 ≤ second && second ≤ 0xBF
  else if first = 0xF4 then 0x80 ≤ second && second ≤ 0x8F
  else isContinuation second

/-- The characters of some bytes, with replacements for what is no character. -/
def decodeLossy : List UInt8 -> List Char
  | [] => []
  | a :: rest =>
      if a < 0x80 then
        Char.ofNat a.toNat :: decodeLossy rest
      else if 0xC2 ≤ a ∧ a ≤ 0xDF then
        match rest with
        | b :: rest =>
            if isContinuation b then
              Char.ofNat (a.toNat % 32 * 64 + continuationBits b) :: decodeLossy rest
            else
              replacement :: decodeLossy (b :: rest)
        | [] => [replacement]
      else if 0xE0 ≤ a ∧ a ≤ 0xEF then
        match rest with
        | b :: c :: rest =>
            if secondOfThree a b then
              if isContinuation c then
                Char.ofNat ((a.toNat % 16 * 64 + continuationBits b) * 64 +
                  continuationBits c) :: decodeLossy rest
              else
                replacement :: decodeLossy (c :: rest)
            else
              replacement :: decodeLossy (b :: c :: rest)
        | [b] =>
            if secondOfThree a b then [replacement] else replacement :: decodeLossy [b]
        | [] => [replacement]
      else if 0xF0 ≤ a ∧ a ≤ 0xF4 then
        match rest with
        | b :: c :: d :: rest =>
            if secondOfFour a b then
              if isContinuation c then
                if isContinuation d then
                  Char.ofNat (((a.toNat % 8 * 64 + continuationBits b) * 64 +
                    continuationBits c) * 64 + continuationBits d) :: decodeLossy rest
                else
                  replacement :: decodeLossy (d :: rest)
              else
                replacement :: decodeLossy (c :: d :: rest)
            else
              replacement :: decodeLossy (b :: c :: d :: rest)
        | [b, c] =>
            if secondOfFour a b then
              if isContinuation c then [replacement] else replacement :: decodeLossy [c]
            else
              replacement :: decodeLossy [b, c]
        | [b] =>
            if secondOfFour a b then [replacement] else replacement :: decodeLossy [b]
        | [] => [replacement]
      else
        replacement :: decodeLossy rest

def lossyString (bytes : ByteArray) : String :=
  match String.fromUTF8? bytes with
  | some text => text
  | none => String.ofList (decodeLossy bytes.toList)

end Text
end LessonPress

import LessonPress.Hash.Sha256
import LessonPress.Text.Quoted

/-!
# Content hashes

## The digest of a content as lower-case hexadecimal text
-/

namespace LessonPress

structure ContentHash where
  hex : String
deriving DecidableEq, Inhabited

namespace ContentHash

def hexByte (byte : UInt8) : List Char :=
  [Text.hexDigit (byte.toNat / 16), Text.hexDigit (byte.toNat % 16)]

def of (bytes : ByteArray) : ContentHash :=
  ⟨String.ofList ((Sha256.digest bytes.toList).flatMap hexByte)⟩

def ofString (text : String) : ContentHash :=
  of text.toUTF8

/-- Several parts are hashed as the one stream they make up. -/
def ofParts (parts : List ByteArray) : ContentHash :=
  of (parts.foldl (· ++ ·) ByteArray.empty)

def takeBytes : Nat -> List Char -> List Char
  | _, [] => []
  | room, c :: rest =>
      if c.utf8Size ≤ room then c :: takeBytes (room - c.utf8Size) rest else []

def short (hash : ContentHash) : String :=
  String.ofList (takeBytes 12 hash.hex.toList)

end ContentHash
end LessonPress

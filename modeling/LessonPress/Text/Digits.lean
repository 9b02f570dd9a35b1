/-!
# Decimal digits

## Whole numbers as runs of the ten ASCII digits
-/

namespace LessonPress
namespace Text

def isDigit (c : Char) : Bool :=
  48 ≤ c.toNat && c.toNat ≤ 57

def digitValue (c : Char) : Nat :=
  c.toNat - 48

def decimalValue (digits : List Char) : Nat :=
  digits.foldl (fun n c => n * 10 + digitValue c) 0

def decimal (n : Nat) : List Char :=
  Nat.toDigits 10 n

end Text
end LessonPress

import LessonPress.Binary64.Basic

/-!
# Decimal text of binary numbers

## Reading digits and writing the fewest digits

A decimal is read as its digits taken for a whole number and a power of ten;
the digits are rounded first and the power of ten is applied after that.  A
number is written with the fewest digits that lie nearer to it than to any
other number of the format.
-/

namespace LessonPress
namespace Binary64

/-!
# Reading
-/

/-- Powers of ten up to this one are applied in a single step. -/
def largestPower : Nat := 308

def powerOfTen (k : Nat) : Binary64 :=
  ofNat (Nat.pow 10 k)

def shrink (x : Binary64) (k : Nat) : Binary64 :=
  if k ≤ largestPower then x.div (powerOfTen k)
  else if x.isZero then x
  else shrink (x.div (powerOfTen largestPower)) (k - largestPower)
termination_by k
decreasing_by
  unfold largestPower at *
  omega

def ofDecimal (negative : Bool) (significand : Nat) (exponent : Int) : Option Binary64 :=
  let start := ofNat significand
  let signed := fun (x : Binary64) => { x with negative := negative }
  if 0 ≤ exponent then
    if exponent.toNat ≤ largestPower then
      let scaled := start.mul (powerOfTen exponent.toNat)
      if scaled.fits then some (signed scaled) else none
    else if start.isZero then some (signed start)
    else none
  else
    some (signed (shrink start (-exponent).toNat))

/-!
# Writing
-/

def digitCount (n : Nat) : Nat :=
  (Nat.toDigits 10 n).length

def decimalExponent (numerator denominator : Nat) : Int :=
  if denominator ≤ numerator then
    (digitCount (numerator / denominator) : Int) - 1
  else
    let places := digitCount (denominator / numerator) - 1
    if denominator ≤ numerator * Nat.pow 10 places then -(places : Int)
    else -(places + 1 : Int)

def atLeast (a b : Nat × Nat) : Bool :=
  b.1 * a.2 ≤ a.1 * b.2

def scaleByTen (q : Nat × Nat) (exponent : Int) : Nat × Nat :=
  if 0 ≤ exponent then (q.1, q.2 * Nat.pow 10 exponent.toNat)
  else (q.1 * Nat.pow 10 (-exponent).toNat, q.2)

/-- The ends of the interval of quotients that round to a number, in quarters
of its unit. -/
def roundingEnds (x : Binary64) : (Nat × Nat) × (Nat × Nat) :=
  let below := if x.mantissa = Nat.pow 2 52 ∧ minExponent < x.exponent then 1 else 2
  let quarter := fun (m : Nat) => (⟨false, m, x.exponent - 2⟩ : Binary64).ratio
  (quarter (4 * x.mantissa - below), quarter (4 * x.mantissa + 2))

/-- Whether a decimal with the given digits reads back as the number.  The ends
of the interval count when the mantissa is even. -/
def readsBack (x : Binary64) (digits : Nat) (exponent : Int) : Bool :=
  let ends := x.roundingEnds
  let decimal := scaleByTen (digits, 1) (-exponent)
  if x.mantissa % 2 = 0 then
    atLeast decimal ends.1 && atLeast ends.2 decimal
  else
    !atLeast ends.1 decimal && !atLeast decimal ends.2

/-- The better of the two decimals around the number on the grid of the given
exponent, if one reads back. -/
def onGrid (x : Binary64) (exponent : Int) : Option Nat :=
  let scaled := scaleByTen x.ratio exponent
  let low := scaled.1 / scaled.2
  let near := nearest scaled.1 scaled.2
  if x.readsBack near exponent then some near
  else if x.readsBack low exponent then some low
  else if x.readsBack (low + 1) exponent then some (low + 1)
  else none

def firstGrid (x : Binary64) : List Int -> Option (Nat × Int)
  | [] => none
  | exponent :: finer =>
      match x.onGrid exponent with
      | some digits => some (digits, exponent)
      | none => firstGrid x finer

def shortest (x : Binary64) : Nat × Int :=
  let top := decimalExponent x.ratio.1 x.ratio.2
  let grids := (List.range 17).map fun (n : Nat) => top - (n : Int)
  (x.firstGrid grids).getD (0, 0)

/-- Numbers of at most this many digits before the point are written without an
exponent. -/
def positionalDigits : Int := 16

/-- Numbers with fewer zeros than this after the point are written without an
exponent. -/
def leadingZeros : Int := 5

def layout (digits : List Char) (exponent : Int) : List Char :=
  let point := (digits.length : Int) + exponent
  if 0 ≤ exponent ∧ point ≤ positionalDigits then
    digits ++ List.replicate exponent.toNat '0' ++ ['.', '0']
  else if 0 < point ∧ point ≤ positionalDigits then
    digits.take point.toNat ++ '.' :: digits.drop point.toNat
  else if -leadingZeros < point ∧ point ≤ 0 then
    '0' :: '.' :: (List.replicate (-point).toNat '0' ++ digits)
  else
    let power := (toString (point - 1)).toList
    match digits with
    | [] => []
    | [digit] => digit :: 'e' :: power
    | digit :: rest => digit :: '.' :: (rest ++ 'e' :: power)

def dropZeros : Nat -> Nat × Int -> Nat × Int
  | 0, decimal => decimal
  | fuel + 1, (digits, exponent) =>
      if digits ≠ 0 ∧ digits % 10 = 0 then
        dropZeros fuel (digits / 10, exponent + 1)
      else
        (digits, exponent)

def toText (x : Binary64) : List Char :=
  let body :=
    if x.isZero then ['0', '.', '0']
    else
      let decimal := x.shortest
      let trimmed := dropZeros (digitCount decimal.1) decimal
      layout (Nat.toDigits 10 trimmed.1) trimmed.2
  if x.negative then '-' :: body else body

end Binary64
end LessonPress

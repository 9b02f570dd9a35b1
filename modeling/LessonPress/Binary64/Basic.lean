/-!
# Binary floating point numbers of 64 bits

## Exact values and rounding

A number is a sign, a mantissa of at most fifty-three bits and an exponent of
two.  Every operation computes its exact result as a quotient of whole numbers
and then rounds once, to the nearest number of the format and to the even
mantissa at a tie.  Exponents have no upper bound here: a result beyond the
format's range stays a large number, and `fits` tells it apart.
-/

namespace LessonPress

/-- The number `(-1)^negative * mantissa * 2^exponent`. -/
structure Binary64 where
  negative : Bool
  mantissa : Nat
  exponent : Int
deriving DecidableEq, Inhabited

namespace Binary64

def minExponent : Int := -1074

def zero (negative : Bool) : Binary64 :=
  ⟨negative, 0, minExponent⟩

def isZero (x : Binary64) : Bool :=
  x.mantissa == 0

def fits (x : Binary64) : Bool :=
  x.exponent ≤ 971

/-!
# Rounding a quotient
-/

/-- The whole number nearest to a quotient, the even one at a tie. -/
def nearest (numerator denominator : Nat) : Nat :=
  let whole := numerator / denominator
  let rest := numerator % denominator
  if 2 * rest < denominator then whole
  else if denominator < 2 * rest then whole + 1
  else if whole % 2 = 0 then whole
  else whole + 1

def scale (numerator denominator : Nat) (exponent : Int) : Nat × Nat :=
  if 0 ≤ exponent then
    (numerator, denominator * Nat.pow 2 exponent.toNat)
  else
    (numerator * Nat.pow 2 (-exponent).toNat, denominator)

/-- The exponent at which a positive quotient has a mantissa of fifty-three
bits, or the smallest one. -/
def exponentFor (numerator denominator : Nat) : Int :=
  let guess : Int := (numerator.log2 : Int) - denominator.log2 - 52
  let scaled := scale numerator denominator guess
  let fitted := if scaled.1 / scaled.2 < Nat.pow 2 52 then guess - 1 else guess
  max fitted minExponent

def round (negative : Bool) (numerator denominator : Nat) : Binary64 :=
  if numerator = 0 then
    zero negative
  else
    let exponent := exponentFor numerator denominator
    let scaled := scale numerator denominator exponent
    let mantissa := nearest scaled.1 scaled.2
    if mantissa = Nat.pow 2 53 then
      ⟨negative, Nat.pow 2 52, exponent + 1⟩
    else
      ⟨negative, mantissa, exponent⟩

/-!
# Arithmetic
-/

def ratio (x : Binary64) : Nat × Nat :=
  if 0 ≤ x.exponent then
    (x.mantissa * Nat.pow 2 x.exponent.toNat, 1)
  else
    (x.mantissa, Nat.pow 2 (-x.exponent).toNat)

def signedNumerator (x : Binary64) : Int :=
  if x.negative then -(x.ratio.1 : Int) else x.ratio.1

def ofNat (n : Nat) : Binary64 :=
  round false n 1

def neg (x : Binary64) : Binary64 :=
  { x with negative := !x.negative }

def abs (x : Binary64) : Binary64 :=
  { x with negative := false }

def mul (x y : Binary64) : Binary64 :=
  round (x.negative != y.negative) (x.ratio.1 * y.ratio.1) (x.ratio.2 * y.ratio.2)

def div (x y : Binary64) : Binary64 :=
  round (x.negative != y.negative) (x.ratio.1 * y.ratio.2) (x.ratio.2 * y.ratio.1)

def add (x y : Binary64) : Binary64 :=
  let numerator := x.signedNumerator * y.ratio.2 + y.signedNumerator * x.ratio.2
  if numerator = 0 then
    zero (x.negative && y.negative)
  else
    round (numerator < 0) numerator.natAbs (x.ratio.2 * y.ratio.2)

def sub (x y : Binary64) : Binary64 :=
  add x y.neg

/-!
# Comparison

Comparison is by value, so the two zeros are equal.
-/

def le (x y : Binary64) : Bool :=
  x.signedNumerator * y.ratio.2 ≤ y.signedNumerator * x.ratio.2

def lt (x y : Binary64) : Bool :=
  x.signedNumerator * y.ratio.2 < y.signedNumerator * x.ratio.2

def sameValue (x y : Binary64) : Bool :=
  x.signedNumerator * y.ratio.2 == y.signedNumerator * x.ratio.2

end Binary64
end LessonPress

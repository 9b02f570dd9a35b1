import LessonPress.Binary64.Basic
import Mathlib.Algebra.Order.Field.Power
import Mathlib.Algebra.Order.Field.Rat
import Mathlib.Data.Rat.Cast.Order
import Mathlib.Tactic.FieldSimp
import Mathlib.Tactic.Linarith
import Mathlib.Tactic.Positivity
import Mathlib.Tactic.Ring

/-!
# Errors of rounding

## How far a result may lie from the exact one

Each operation computes its exact quotient and rounds it once.  The spacing of the
numbers around a quotient is at most a part in `2^52` of it, or the smallest spacing of
all, and the nearest number lies within half of that.
-/

namespace LessonPress
namespace Binary64

def sign (negative : Bool) : Rat :=
  if negative then -1 else 1

def value (x : Binary64) : Rat :=
  sign x.negative * (x.mantissa * (2 : Rat) ^ x.exponent)

theorem abs_sign (negative : Bool) : |sign negative| = 1 := by
  cases negative <;> simp [sign]

theorem sign_bne (a b : Bool) : sign (a != b) = sign a * sign b := by
  cases a <;> cases b <;> simp [sign]

theorem ratio_pos (x : Binary64) : 0 < x.ratio.2 := by
  unfold ratio
  split
  · exact Nat.one_pos
  · exact Nat.pow_pos Nat.two_pos

theorem zpow_eq_pow {exponent : Int} (h : 0 ≤ exponent) :
    (2 : Rat) ^ exponent = 2 ^ exponent.toNat := by
  rw [← zpow_natCast, Int.toNat_of_nonneg h]

theorem zpow_eq_inv_pow {exponent : Int} (h : ¬ 0 ≤ exponent) :
    (2 : Rat) ^ exponent = (2 ^ (-exponent).toNat)⁻¹ := by
  have hnonneg : 0 ≤ -exponent := by omega
  rw [← zpow_eq_pow hnonneg, zpow_neg, inv_inv]

theorem ratio_value (x : Binary64) :
    (x.ratio.1 : Rat) / x.ratio.2 = x.mantissa * (2 : Rat) ^ x.exponent := by
  unfold ratio
  split
  · rename_i hexponent
    simp [zpow_eq_pow hexponent]
  · rename_i hexponent
    simp [zpow_eq_inv_pow hexponent, div_eq_mul_inv]

theorem value_eq_ratio (x : Binary64) :
    x.value = sign x.negative * (x.ratio.1 / x.ratio.2) := by
  rw [ratio_value]
  rfl

theorem value_eq (x : Binary64) : x.value = x.signedNumerator / x.ratio.2 := by
  rw [value_eq_ratio]
  unfold signedNumerator sign
  cases x.negative with
  | true => simp [neg_div]
  | false => simp

theorem value_neg (x : Binary64) : x.neg.value = -x.value := by
  unfold value neg sign
  cases x.negative <;> simp

theorem value_abs (x : Binary64) : x.abs.value = |x.value| := by
  have hsize : 0 ≤ (x.mantissa : Rat) * (2 : Rat) ^ x.exponent := by positivity
  unfold value
  rw [abs_mul, abs_sign, abs_of_nonneg hsize]
  rfl

theorem le_iff (x y : Binary64) : x.le y = true <-> x.value ≤ y.value := by
  have hx : (0 : Rat) < x.ratio.2 := by exact_mod_cast x.ratio_pos
  have hy : (0 : Rat) < y.ratio.2 := by exact_mod_cast y.ratio_pos
  unfold le
  rw [decide_eq_true_iff, value_eq, value_eq, div_le_div_iff₀ hx hy]
  exact_mod_cast Iff.rfl

/-!
# The nearest whole number
-/

/-- The whole part of the quotient is raised by one or not, and is then off by at most
half of the denominator. -/
theorem nearest_cases (numerator : Nat) {denominator : Nat} (hpos : 0 < denominator) :
    exists carry, nearest numerator denominator = numerator / denominator + carry ∧
      2 * (numerator % denominator) ≤ denominator + 2 * (carry * denominator) ∧
        2 * (carry * denominator) ≤ denominator + 2 * (numerator % denominator) := by
  have hrest := Nat.mod_lt numerator hpos
  unfold nearest
  dsimp only
  split
  · exact ⟨0, rfl, by omega, by omega⟩
  · split
    · exact ⟨1, rfl, by omega, by omega⟩
    · split
      · exact ⟨0, rfl, by omega, by omega⟩
      · exact ⟨1, rfl, by omega, by omega⟩

theorem nearest_error (numerator : Nat) {denominator : Nat} (hpos : 0 < denominator) :
    |(nearest numerator denominator : Rat) - numerator / denominator| ≤ 1 / 2 := by
  rcases nearest_cases numerator hpos with ⟨carry, hnearest, hbelow, habove⟩
  have hdenominator : (0 : Rat) < denominator := by exact_mod_cast hpos
  have hparts : (numerator : Rat) =
      denominator * (numerator / denominator : Nat) + (numerator % denominator : Nat) := by
    exact_mod_cast (Nat.div_add_mod numerator denominator).symm
  have herror : (nearest numerator denominator : Rat) - numerator / denominator =
      (carry * denominator - (numerator % denominator : Nat)) / denominator := by
    rw [hnearest, eq_div_iff hdenominator.ne', sub_mul, div_mul_cancel₀ _ hdenominator.ne']
    rw [Nat.cast_add]
    linarith
  rw [herror, abs_div, abs_of_pos hdenominator, div_le_iff₀ hdenominator, abs_le]
  have hbelow' : 2 * ((numerator % denominator : Nat) : Rat) ≤
      denominator + 2 * (carry * denominator) := by
    exact_mod_cast hbelow
  have habove' : 2 * ((carry : Rat) * denominator) ≤
      denominator + 2 * (numerator % denominator : Nat) := by
    exact_mod_cast habove
  constructor <;> linarith

theorem nearest_one (numerator : Nat) : nearest numerator 1 = numerator := by
  unfold nearest
  simp [Nat.mod_one]

/-!
# The spacing
-/

theorem scale_pos {denominator : Nat} (hpos : 0 < denominator) (numerator : Nat)
    (exponent : Int) : 0 < (scale numerator denominator exponent).2 := by
  unfold scale
  split
  · exact Nat.mul_pos hpos (Nat.pow_pos Nat.two_pos)
  · exact hpos

theorem scale_value (numerator denominator : Nat) (exponent : Int) :
    ((scale numerator denominator exponent).1 : Rat) / (scale numerator denominator exponent).2 =
      (numerator / denominator) / (2 : Rat) ^ exponent := by
  unfold scale
  split
  · rename_i hexponent
    simp [zpow_eq_pow hexponent, div_div]
  · rename_i hexponent
    simp [zpow_eq_inv_pow hexponent, mul_div_right_comm]

theorem power_log2_le {n : Nat} (hpos : 0 < n) : (2 : Rat) ^ (n.log2 : Int) ≤ n := by
  rw [zpow_natCast]
  exact_mod_cast Nat.log2_self_le hpos.ne'

theorem lt_power_log2 (n : Nat) : (n : Rat) < (2 : Rat) ^ ((n.log2 : Int) + 1) := by
  have hpower : (2 : Rat) ^ ((n.log2 : Int) + 1) = 2 ^ (n.log2 + 1) := by
    rw [← zpow_natCast]
    simp
  rw [hpower]
  exact_mod_cast Nat.lt_log2_self

theorem power_le_quotient {numerator denominator : Nat} (hnumerator : 0 < numerator)
    (hdenominator : 0 < denominator) :
    (2 : Rat) ^ ((numerator.log2 : Int) - denominator.log2 - 1) ≤ numerator / denominator := by
  have hpos : (0 : Rat) < denominator := by exact_mod_cast hdenominator
  have hpower : (2 : Rat) ^ ((numerator.log2 : Int) - denominator.log2 - 1) =
      2 ^ (numerator.log2 : Int) / 2 ^ ((denominator.log2 : Int) + 1) := by
    rw [← zpow_sub₀ two_ne_zero, sub_sub]
  rw [hpower]
  calc (2 : Rat) ^ (numerator.log2 : Int) / 2 ^ ((denominator.log2 : Int) + 1)
      ≤ 2 ^ (numerator.log2 : Int) / denominator := by
        exact div_le_div_of_nonneg_left (by positivity) hpos (lt_power_log2 denominator).le
    _ ≤ numerator / denominator := by
        exact div_le_div_of_nonneg_right (power_log2_le hnumerator) hpos.le

/-- The spacing is the smallest one, or at most a part in `2^52` of the quotient. -/
theorem exponentFor_cases {numerator denominator : Nat} (hnumerator : 0 < numerator)
    (hdenominator : 0 < denominator) :
    exponentFor numerator denominator = minExponent ∨
      (2 : Rat) ^ (exponentFor numerator denominator + 52) ≤ numerator / denominator := by
  unfold exponentFor
  dsimp only
  generalize hguess : (numerator.log2 : Int) - denominator.log2 - 52 = guess
  generalize hfitted : (if (scale numerator denominator guess).1 /
    (scale numerator denominator guess).2 < Nat.pow 2 52 then guess - 1 else guess) = fitted
  rcases le_total fitted minExponent with hsmall | hlarge
  · exact .inl (max_eq_right hsmall)
  · right
    rw [max_eq_left hlarge, ← hfitted]
    split
    · have hexponent : guess - 1 + 52 = (numerator.log2 : Int) - denominator.log2 - 1 := by omega
      rw [hexponent]
      exact power_le_quotient hnumerator hdenominator
    · rename_i hwhole
      have hscale := scale_pos hdenominator numerator guess
      have hpos : (0 : Rat) < (scale numerator denominator guess).2 := by exact_mod_cast hscale
      have hscaled : (2 : Rat) ^ 52 ≤ (scale numerator denominator guess).1 /
          (scale numerator denominator guess).2 := by
        rw [le_div_iff₀ hpos]
        exact_mod_cast (Nat.le_div_iff_mul_le hscale).mp (not_lt.mp hwhole)
      rw [scale_value, le_div_iff₀ (by positivity)] at hscaled
      rw [zpow_add₀ two_ne_zero, mul_comm]
      exact hscaled

/-!
# Rounding
-/

/-- The number is the fraction up to one rounding. -/
def Rounds (x : Binary64) (exact : Rat) : Prop :=
  |x.value - exact| ≤ |exact| / 2 ^ 53 + 2 ^ (minExponent - 1)

theorem value_zero (negative : Bool) : (zero negative).value = 0 := by
  unfold value zero
  simp

theorem rounds_zero (negative : Bool) : Rounds (zero negative) 0 := by
  have hsmallest : (0 : Rat) < 2 ^ (minExponent - 1) := by positivity
  unfold Rounds
  rw [value_zero]
  simpa using hsmallest.le

theorem value_round {negative : Bool} {numerator denominator : Nat} (hpos : 0 < numerator) :
    (round negative numerator denominator).value =
      sign negative *
        (nearest (scale numerator denominator (exponentFor numerator denominator)).1
            (scale numerator denominator (exponentFor numerator denominator)).2 *
          (2 : Rat) ^ exponentFor numerator denominator) := by
  unfold round
  rw [if_neg hpos.ne']
  dsimp only
  split
  · rename_i hlarge
    have hdouble : ((Nat.pow 2 53 : Nat) : Rat) = (Nat.pow 2 52 : Nat) * 2 := by norm_num
    rw [hlarge, hdouble]
    unfold value
    dsimp only
    rw [zpow_add_one₀ two_ne_zero, mul_assoc _ (2 : Rat), mul_comm (2 : Rat)]
  · rfl

theorem spacing_le {numerator denominator : Nat} (hnumerator : 0 < numerator)
    (hdenominator : 0 < denominator) :
    1 / 2 * (2 : Rat) ^ exponentFor numerator denominator ≤
      numerator / denominator / 2 ^ 53 + 2 ^ (minExponent - 1) := by
  rcases exponentFor_cases hnumerator hdenominator with hsmallest | hpart
  · have hquotient : (0 : Rat) ≤ numerator / denominator / 2 ^ 53 := by positivity
    rw [hsmallest, zpow_sub_one₀ two_ne_zero]
    linarith
  · have hsmallest : (0 : Rat) < 2 ^ (minExponent - 1) := by positivity
    have hpower : (2 : Rat) ^ (exponentFor numerator denominator + 52) =
        2 ^ exponentFor numerator denominator * 2 ^ 52 :=
      zpow_add₀ two_ne_zero _ 52
    rw [hpower] at hpart
    linarith

theorem rounds_round (negative : Bool) (numerator : Nat) {denominator : Nat}
    (hdenominator : 0 < denominator) :
    Rounds (round negative numerator denominator) (sign negative * (numerator / denominator)) := by
  rcases Nat.eq_zero_or_pos numerator with hzero | hpos
  · subst hzero
    unfold round
    rw [if_pos rfl]
    simpa using rounds_zero negative
  · have hquotient : (0 : Rat) ≤ numerator / denominator := by positivity
    have hspacing := spacing_le hpos hdenominator
    have hnearest := nearest_error
      (scale numerator denominator (exponentFor numerator denominator)).1
      (scale_pos hdenominator numerator (exponentFor numerator denominator))
    rw [scale_value] at hnearest
    unfold Rounds
    rw [value_round hpos, ← mul_sub, abs_mul, abs_mul, abs_sign, one_mul, one_mul,
      abs_of_nonneg hquotient]
    generalize exponentFor numerator denominator = exponent at hspacing hnearest ⊢
    have hpower : (0 : Rat) < 2 ^ exponent := by positivity
    generalize (nearest (scale numerator denominator exponent).1
      (scale numerator denominator exponent).2 : Rat) = mantissa at hnearest ⊢
    -- the error counts in steps of the spacing
    have herror : mantissa * (2 : Rat) ^ exponent - numerator / denominator =
        (mantissa - numerator / denominator / 2 ^ exponent) * 2 ^ exponent := by
      rw [sub_mul, div_mul_cancel₀ _ hpower.ne']
    rw [herror, abs_mul, abs_of_pos hpower]
    exact (mul_le_mul_of_nonneg_right hnearest hpower.le).trans hspacing

theorem value_ofNat {n : Nat} (hsmall : n < 2 ^ 53) : (ofNat n).value = n := by
  unfold ofNat
  rcases Nat.eq_zero_or_pos n with hzero | hpos
  · subst hzero
    rw [round, if_pos rfl, value_zero]
    rfl
  · have hexponent : exponentFor n 1 ≤ 0 := by
      have hlog : n.log2 ≤ 52 := by
        have hlt := (Nat.log2_lt hpos.ne').mpr hsmall
        omega
      have hone : Nat.log2 1 = 0 := rfl
      unfold exponentFor minExponent
      rw [hone]
      dsimp only
      split <;> omega
    rw [value_round hpos]
    generalize exponentFor n 1 = exponent at hexponent ⊢
    have hone : (scale n 1 exponent).2 = 1 := by
      unfold scale
      split
      · have hzero : exponent = 0 := by omega
        rw [hzero]
        rfl
      · rfl
    have hscaled := scale_value n 1 exponent
    rw [hone, Nat.cast_one, div_one, div_one] at hscaled
    rw [hone, nearest_one, hscaled, div_mul_cancel₀ _ (by positivity)]
    exact one_mul _

section Operations

variable (x y : Binary64)

theorem rounds_mul : Rounds (x.mul y) (x.value * y.value) := by
  have hexact : x.value * y.value = sign (x.negative != y.negative) *
      ((x.ratio.1 * y.ratio.1 : Nat) / (x.ratio.2 * y.ratio.2 : Nat)) := by
    rw [value_eq_ratio, value_eq_ratio, sign_bne]
    push_cast
    ring
  rw [hexact]
  exact rounds_round _ _ (Nat.mul_pos x.ratio_pos y.ratio_pos)

theorem rounds_div (hnonzero : y.value ≠ 0) : Rounds (x.div y) (x.value / y.value) := by
  have hratio : 0 < y.ratio.1 := by
    rcases Nat.eq_zero_or_pos y.ratio.1 with hzero | hpos
    · rw [value_eq_ratio, hzero] at hnonzero
      simp at hnonzero
    · exact hpos
  have hsign : (sign y.negative)⁻¹ = sign y.negative := by
    cases y.negative <;> simp [sign]
  have hexact : x.value / y.value = sign (x.negative != y.negative) *
      ((x.ratio.1 * y.ratio.2 : Nat) / (x.ratio.2 * y.ratio.1 : Nat)) := by
    rw [value_eq_ratio, value_eq_ratio, sign_bne, div_eq_mul_inv, mul_inv, hsign, inv_div]
    push_cast
    ring
  rw [hexact]
  exact rounds_round _ _ (Nat.mul_pos x.ratio_pos hratio)

theorem rounds_add : Rounds (x.add y) (x.value + y.value) := by
  have hx : (x.ratio.2 : Rat) ≠ 0 := by exact_mod_cast x.ratio_pos.ne'
  have hy : (y.ratio.2 : Rat) ≠ 0 := by exact_mod_cast y.ratio_pos.ne'
  have hexact : x.value + y.value =
      (x.signedNumerator * y.ratio.2 + y.signedNumerator * x.ratio.2 : Int) /
        (x.ratio.2 * y.ratio.2 : Nat) := by
    rw [value_eq, value_eq, div_add_div _ _ hx hy]
    push_cast
    ring
  rw [hexact]
  unfold add
  dsimp only
  generalize x.signedNumerator * y.ratio.2 + y.signedNumerator * x.ratio.2 = numerator
  split
  · rename_i hzero
    subst hzero
    simpa using rounds_zero (x.negative && y.negative)
  · have hsigned : (numerator : Rat) = sign (numerator < 0) * numerator.natAbs := by
      rw [Nat.cast_natAbs, Int.cast_abs]
      rcases lt_or_ge numerator 0 with hnegative | hnonneg
      · have habs : |(numerator : Rat)| = -numerator := abs_of_neg (by exact_mod_cast hnegative)
        simp [sign, hnegative, habs]
      · have habs : |(numerator : Rat)| = numerator := abs_of_nonneg (by exact_mod_cast hnonneg)
        simp [sign, hnonneg, habs]
    rw [hsigned, mul_div_assoc]
    exact rounds_round _ _ (Nat.mul_pos x.ratio_pos y.ratio_pos)

theorem rounds_sub : Rounds (x.sub y) (x.value - y.value) := by
  rw [sub_eq_add_neg, ← value_neg]
  exact rounds_add x y.neg

end Operations

theorem Rounds.error_le {x : Binary64} {exact : Rat} (h : Rounds x exact) (bound : Rat)
    (hbound : |exact| ≤ bound) : |x.value - exact| ≤ (bound + 1) / 2 ^ 53 := by
  have hsmallest : (2 : Rat) ^ (minExponent - 1) ≤ 2 ^ (-53 : Int) :=
    zpow_le_zpow_right₀ one_le_two (by decide)
  have hpower : (2 : Rat) ^ (-53 : Int) = 1 / 2 ^ 53 := by norm_num
  unfold Rounds at h
  rw [hpower] at hsmallest
  have hshare : |exact| / 2 ^ 53 ≤ bound / 2 ^ 53 :=
    div_le_div_of_nonneg_right hbound (by positivity)
  rw [add_div]
  linarith

end Binary64
end LessonPress

import LessonPress.Text.Blank
import LessonPress.Text.Digits

/-!
# Decimal text

## The digits of a whole number and their value
-/

namespace LessonPress
namespace Text

theorem decimalValue_decimal (n : Nat) : decimalValue (decimal n) = n := by
  have hvalue : forall (digits : List Char) (start : Nat),
      digits.foldl (fun n c => n * 10 + digitValue c) start =
        Nat.ofDigitChars 10 digits start := by
    intro digits
    induction digits with
    | nil =>
        intro start
        rw [Nat.ofDigitChars_nil]
        rfl
    | cons c rest ih =>
        intro start
        rw [List.foldl_cons, ih, Nat.ofDigitChars_cons, Nat.mul_comm]
        rfl
  unfold decimalValue decimal
  rw [hvalue, Nat.ofDigitChars_ten_toDigits]

theorem isDigit_of_mem_decimal {n : Nat} {c : Char} (h : c ∈ decimal n) : isDigit c = true := by
  have hdigit := Nat.isDigit_of_mem_toDigits (by decide) (by decide) h
  unfold isDigit
  simp only [Char.isDigit, Bool.and_eq_true, decide_eq_true_eq] at hdigit ⊢
  exact hdigit

theorem not_blank_of_isDigit {c : Char} (h : isDigit c = true) : isBlank c = false := by
  unfold isDigit at h
  rw [Bool.and_eq_true, decide_eq_true_eq, decide_eq_true_eq] at h
  unfold isBlank
  simp only [Bool.or_eq_false_iff, Bool.and_eq_false_iff, decide_eq_false_iff_not,
    beq_eq_false_iff_ne]
  omega

theorem decimal_ne_nil (n : Nat) : decimal n ≠ [] :=
  Nat.toDigits_ne_nil

theorem decimal_head_zero {n : Nat} (h : (decimal n).head? = some '0') : n = 0 := by
  unfold decimal at h
  induction n using Nat.strongRecOn with
  | ind n ih =>
      rw [Nat.toDigits_eq_if (by decide)] at h
      split at h
      · rename_i hlt
        have hchar : n.digitChar = '0' := Option.some.inj h
        have hvalue := Nat.toNat_digitChar_sub_48_of_lt_ten hlt
        rw [hchar] at hvalue
        exact hvalue.symm
      · rename_i hle
        have hsmaller : n / 10 < n := by omega
        have hhead : (Nat.toDigits 10 (n / 10)).head? = some '0' := by
          rw [List.head?_append] at h
          cases hdigits : (Nat.toDigits 10 (n / 10)).head? with
          | none => exact absurd (List.head?_eq_none_iff.mp hdigits) Nat.toDigits_ne_nil
          | some c =>
              rw [hdigits] at h
              exact h
        have hzero := ih (n / 10) hsmaller hhead
        omega

end Text
end LessonPress

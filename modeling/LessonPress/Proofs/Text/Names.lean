import LessonPress.Document.LineKind
import LessonPress.Text.Letters

/-!
# Names

## Characters that end a name

No blank stands in a name, and neither does a character that has a meaning of its own in a
tag.
-/

namespace LessonPress
namespace Text

def blankCodes : List Nat :=
  [9, 10, 11, 12, 13, 32, 0x85, 0xA0, 0x1680, 0x2000, 0x2001, 0x2002, 0x2003, 0x2004, 0x2005,
    0x2006, 0x2007, 0x2008, 0x2009, 0x200A, 0x2028, 0x2029, 0x202F, 0x205F, 0x3000]

theorem mem_blankCodes {c : Char} (h : isBlank c = true) : c.toNat ∈ blankCodes := by
  unfold isBlank at h
  simp only [Bool.or_eq_true, Bool.and_eq_true, decide_eq_true_eq, beq_iff_eq] at h
  unfold blankCodes
  simp only [List.mem_cons, List.not_mem_nil, or_false]
  omega

/-- No code point of a blank is in one of the classes of letters and digits. -/
theorem not_covered_blankCodes : forall n, n ∈ blankCodes ->
    covered alphabeticBoundaries n = false ∧ covered alphanumericBoundaries n = false ∧
      n ∉ ['_', '-', '.', ':'].map Char.toNat := by
  decide +kernel

theorem not_blank_of_isNamePart {c : Char} (h : isNamePart c = true) : isBlank c = false := by
  cases hblank : isBlank c with
  | false => rfl
  | true =>
      obtain ⟨_, halphanumeric, hothers⟩ := not_covered_blankCodes _ (mem_blankCodes hblank)
      unfold isNamePart isAlphanumeric at h
      rw [halphanumeric] at h
      simp only [Bool.false_or, Bool.or_eq_true, beq_iff_eq] at h
      rcases h with ((rfl | rfl) | rfl) | rfl <;> exact absurd (by simp) hothers

theorem not_blank_of_isNameStart {c : Char} (h : isNameStart c = true) : isBlank c = false := by
  cases hblank : isBlank c with
  | false => rfl
  | true =>
      obtain ⟨halphabetic, _, hothers⟩ := not_covered_blankCodes _ (mem_blankCodes hblank)
      unfold isNameStart isAlphabetic at h
      rw [halphabetic] at h
      simp only [Bool.false_or, beq_iff_eq] at h
      rw [h] at hothers
      exact absurd (by simp) hothers

theorem not_name_of_isBlank {c : Char} (h : isBlank c = true) :
    isNamePart c = false ∧ isNameStart c = false := by
  constructor
  · cases hpart : isNamePart c with
    | false => rfl
    | true =>
        rw [not_blank_of_isNamePart hpart] at h
        cases h
  · cases hstart : isNameStart c with
    | false => rfl
    | true =>
        rw [not_blank_of_isNameStart hstart] at h
        cases h

theorem not_name_of_mark :
    forall c, c ∈ ['>', '/', '=', '<', '"', '\'', '\x7b', '\x7d', '`', '~'] ->
    isNamePart c = false ∧ isNameStart c = false := by
  have hmarks : ['>', '/', '=', '<', '"', '\'', '\x7b', '\x7d', '`', '~'].all
      (fun c => !isNamePart c && !isNameStart c) = true := by
    decide +kernel
  intro c hc
  simpa using List.all_eq_true.mp hmarks c hc

theorem toNat_of_isUpper {c : Char} (h : LineKind.isUpper c = true) :
    65 ≤ c.toNat ∧ c.toNat ≤ 90 := by
  unfold LineKind.isUpper at h
  rw [Bool.and_eq_true, decide_eq_true_eq, decide_eq_true_eq] at h
  exact h

theorem isNamePart_of_isUpper {c : Char} (h : LineKind.isUpper c = true) :
    isNamePart c = true := by
  have hcovered : forall n, n ∈ List.range' 65 26 -> covered alphanumericBoundaries n = true := by
    decide +kernel
  obtain ⟨hfirst, hlast⟩ := toNat_of_isUpper h
  have hmem : c.toNat ∈ List.range' 65 26 := by
    rw [List.mem_range'_1]
    omega
  unfold isNamePart isAlphanumeric
  rw [hcovered _ hmem]
  rfl

end Text
end LessonPress

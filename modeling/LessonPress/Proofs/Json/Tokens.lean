import LessonPress.Json.Printer
import LessonPress.Json.Reader
import LessonPress.Proofs.Text.Decimal

/-!
# Strings and numbers in JSON text

## What is written is read back, whatever follows

A string ends with its quotation mark, so anything may follow it.  After a number only
a comma or a closing bracket may follow, which is all that the printer puts there.
-/

namespace LessonPress
namespace Json

open Text

/-!
# Strings
-/

theorem hexValue_hexDigit {n : Nat} (h : n < 16) : hexValue (hexDigit n) = some n := by
  have hall : forall n : Fin 16, hexValue (hexDigit n) = some n.val := by decide
  exact hall ⟨n, h⟩

theorem hexUnit_low {c : Char} (h : c.toNat < 32) :
    hexUnit '0' '0' (hexDigit (c.toNat / 16)) (hexDigit (c.toNat % 16)) = some c.toNat := by
  have hzero : hexValue '0' = some 0 := rfl
  unfold hexUnit
  rw [hexValue_hexDigit (by omega), hexValue_hexDigit (Nat.mod_lt _ (by decide)), hzero]
  dsimp only
  congr 1
  omega

theorem readString_escape (c : Char) (rest : List Char) :
    readString (escape c ++ rest) =
      (readString rest).map fun (tail, after) => (c :: tail, after) := by
  unfold escape
  split
  · rfl
  · rfl
  · rfl
  · rfl
  · rfl
  · rfl
  · rfl
  · rename_i hquote hslash hback htab hline hfeed hreturn
    split
    · rename_i hlow
      have hchar : Char.ofNat c.toNat = c := Char.ofNat_toNat c
      simp only [List.cons_append, List.nil_append]
      rw [readString, hexUnit_low hlow]
      dsimp only
      rw [if_pos (Or.inl (by omega)), hchar]
    · rename_i hhigh
      have hplain : ¬ (c.toNat < 32 ∨ c = '\\') := by
        rintro (hlow | heq)
        · exact hhigh hlow
        · exact hslash heq
      rw [List.cons_append, List.nil_append, readString, if_neg hplain]
      · exact hquote
      · intro _ _ _ _ _ heq _
        exact hslash heq
      · intro _ _ heq _
        exact hslash heq

theorem readString_escapeAll (text rest : List Char) :
    readString (escapeAll text ++ '"' :: rest) = some (text, rest) := by
  induction text with
  | nil => rfl
  | cons c text ih =>
      change readString ((escape c ++ escapeAll text) ++ '"' :: rest) = some (c :: text, rest)
      rw [List.append_assoc, readString_escape, ih]
      rfl

/-!
# Numbers
-/

def Closes (text : List Char) : Prop :=
  forall c rest, text = c :: rest -> c = ',' ∨ c = ']' ∨ c = '\x7d'

theorem closes_nil : Closes [] := by
  intro c rest h
  cases h

theorem closes_cons {c : Char} {rest : List Char} (h : c = ',' ∨ c = ']' ∨ c = '\x7d') :
    Closes (c :: rest) := by
  intro other tail heq
  cases heq
  exact h

theorem digitRun_append (text : List Char) {rest : List Char} (h : Closes rest) :
    digitRun (text ++ rest) = ((digitRun text).1, (digitRun text).2 ++ rest) := by
  unfold digitRun
  induction text with
  | nil =>
      cases rest with
      | nil => rfl
      | cons c tail =>
          have hstop : isDigit c = false := by
            rcases h c tail rfl with hc | hc | hc <;> rw [hc] <;> rfl
          simp [hstop]
  | cons c text ih =>
      cases hc : isDigit c with
      | false => simp [hc]
      | true =>
          simp only [Prod.mk.injEq] at ih
          simp [hc, ih.left, ih.right]

theorem readExponent_append {text after rest : List Char} {exponent : Bool × List Char}
    (h : readExponent text = some (exponent, after)) (hrest : Closes rest) :
    readExponent (text ++ rest) = some (exponent, after ++ rest) := by
  cases text with
  | nil =>
      cases h
      cases rest with
      | nil => rfl
      | cons c tail =>
          have hstop : ¬ (c = 'e' ∨ c = 'E') := by
            rcases hrest c tail rfl with hc | hc | hc <;> rw [hc] <;> decide
          simp [readExponent, hstop]
  | cons c text =>
      rw [List.cons_append]
      simp only [readExponent] at h ⊢
      split at h
      · rename_i hmark
        rw [if_pos hmark]
        have hsign : exponentSign (text ++ rest) =
            ((exponentSign text).1, (exponentSign text).2 ++ rest) ∨
              (digitRun (exponentSign text).2).1 = [] := by
          cases text with
          | nil => exact Or.inr rfl
          | cons d tail =>
              left
              rw [List.cons_append]
              unfold exponentSign
              split <;> simp_all
        rcases hsign with hsign | hempty
        · rw [hsign]
          dsimp only at h ⊢
          rw [digitRun_append _ hrest]
          dsimp only
          split at h
          · cases h
          · rename_i hdigits
            rw [if_neg hdigits]
            cases h
            rfl
        · rw [hempty] at h
          cases h
      · rename_i hmark
        rw [if_neg hmark]
        cases h
        rfl

/-!
After the digits before the point, a number goes on with a fraction or without.
-/

def readFraction (negative : Bool) (whole text : List Char) : Option (Json × List Char) :=
  if (digitRun text).1.isEmpty then none
  else
    match readExponent (digitRun text).2 with
    | none => none
    | some (exponent, after) =>
        (decimalNumber negative whole (digitRun text).1 exponent).map (·, after)

def readPlain (negative : Bool) (whole text : List Char) : Option (Json × List Char) :=
  match readExponent text with
  | none => none
  | some ((_, []), after) => (wholeNumber negative whole).map (·, after)
  | some (exponent, after) => (decimalNumber negative whole [] exponent).map (·, after)

def readTail (negative : Bool) (whole : List Char) : List Char -> Option (Json × List Char)
  | '.' :: rest => readFraction negative whole rest
  | rest => readPlain negative whole rest

theorem readDigits_eq (negative : Bool) (text : List Char) :
    readDigits negative text =
      if (digitRun text).1.isEmpty ∨
          ((digitRun text).1.head? = some '0' ∧ 1 < (digitRun text).1.length) then
        none
      else
        readTail negative (digitRun text).1 (digitRun text).2 := by
  rfl

theorem readFraction_append {negative : Bool} {whole text after rest : List Char} {value : Json}
    (h : readFraction negative whole text = some (value, after)) (hrest : Closes rest) :
    readFraction negative whole (text ++ rest) = some (value, after ++ rest) := by
  unfold readFraction at h ⊢
  rw [digitRun_append text hrest]
  dsimp only
  split at h
  · cases h
  · rename_i hfraction
    rw [if_neg hfraction]
    cases hexponent : readExponent (digitRun text).2 with
    | none =>
        rw [hexponent] at h
        cases h
    | some found =>
        obtain ⟨exponent, final⟩ := found
        rw [hexponent] at h
        rw [readExponent_append hexponent hrest]
        obtain ⟨number, hnumber, hpair⟩ := Option.map_eq_some_iff.mp h
        cases hpair
        exact Option.map_eq_some_iff.mpr ⟨_, hnumber, rfl⟩

theorem readPlain_append {negative : Bool} {whole text after rest : List Char} {value : Json}
    (h : readPlain negative whole text = some (value, after)) (hrest : Closes rest) :
    readPlain negative whole (text ++ rest) = some (value, after ++ rest) := by
  unfold readPlain at h ⊢
  cases hexponent : readExponent text with
  | none =>
      rw [hexponent] at h
      cases h
  | some found =>
      obtain ⟨⟨sign, digits⟩, final⟩ := found
      rw [hexponent] at h
      rw [readExponent_append hexponent hrest]
      cases digits with
      | nil =>
          obtain ⟨number, hnumber, hpair⟩ := Option.map_eq_some_iff.mp h
          cases hpair
          exact Option.map_eq_some_iff.mpr ⟨_, hnumber, rfl⟩
      | cons d digits =>
          obtain ⟨number, hnumber, hpair⟩ := Option.map_eq_some_iff.mp h
          cases hpair
          exact Option.map_eq_some_iff.mpr ⟨_, hnumber, rfl⟩

theorem readTail_of_ne (negative : Bool) (whole : List Char) {text : List Char}
    (h : forall rest, text ≠ '.' :: rest) :
    readTail negative whole text = readPlain negative whole text := by
  unfold readTail
  split
  · rename_i rest
    exact absurd rfl (h rest)
  · rfl

theorem readTail_append {negative : Bool} {whole text after rest : List Char} {value : Json}
    (h : readTail negative whole text = some (value, after)) (hrest : Closes rest) :
    readTail negative whole (text ++ rest) = some (value, after ++ rest) := by
  by_cases hpoint : exists tail, text = '.' :: tail
  · rcases hpoint with ⟨tail, htail⟩
    subst htail
    rw [List.cons_append]
    exact readFraction_append h hrest
  · have hplain : forall tail, text ≠ '.' :: tail := fun tail htail => hpoint ⟨tail, htail⟩
    have hlonger : forall tail, text ++ rest ≠ '.' :: tail := by
      intro tail htail
      cases text with
      | nil => rcases hrest '.' tail htail with hc | hc | hc <;> cases hc
      | cons c text =>
          cases htail
          exact hplain text rfl
    rw [readTail_of_ne _ _ hplain] at h
    rw [readTail_of_ne _ _ hlonger]
    exact readPlain_append h hrest

theorem readDigits_append {negative : Bool} {text after rest : List Char} {value : Json}
    (h : readDigits negative text = some (value, after)) (hrest : Closes rest) :
    readDigits negative (text ++ rest) = some (value, after ++ rest) := by
  rw [readDigits_eq] at h ⊢
  rw [digitRun_append text hrest]
  dsimp only
  split at h
  · cases h
  · rename_i hwhole
    rw [if_neg hwhole]
    exact readTail_append h hrest

theorem readNumber_append {text after rest : List Char} {value : Json}
    (h : readNumber text = some (value, after)) (hrest : Closes rest) :
    readNumber (text ++ rest) = some (value, after ++ rest) := by
  cases text with
  | nil => cases h
  | cons c text =>
      by_cases hminus : c = '-'
      · subst hminus
        rw [List.cons_append]
        exact readDigits_append h hrest
      · have hplain : forall more, readNumber (c :: more) = readDigits false (c :: more) := by
          intro more
          unfold readNumber
          split
          · rename_i heq
            cases heq
            exact absurd rfl hminus
          · rfl
        rw [hplain] at h
        rw [List.cons_append, hplain]
        exact readDigits_append h hrest

theorem readNumber_head {text : List Char} {found : Json × List Char}
    (h : readNumber text = some found) :
    exists c rest, text = c :: rest ∧ (c = '-' ∨ isDigit c = true) := by
  cases text with
  | nil => cases h
  | cons c rest =>
      refine ⟨c, rest, rfl, ?_⟩
      by_cases hminus : c = '-'
      · exact Or.inl hminus
      · refine Or.inr ?_
        cases hdigit : isDigit c with
        | true => rfl
        | false =>
            have hnone : readNumber (c :: rest) = none := by
              unfold readNumber
              split
              · rename_i heq
                cases heq
                exact absurd rfl hminus
              · rw [readDigits_eq]
                simp [digitRun, hdigit]
            rw [hnone] at h
            cases h

theorem digitRun_decimal (n : Nat) : digitRun (decimal n) = (decimal n, []) := by
  have hall : forall c, c ∈ decimal n -> isDigit c = true := fun c => isDigit_of_mem_decimal
  unfold digitRun
  have htake : (decimal n ++ []).takeWhile isDigit = decimal n ++ [].takeWhile isDigit :=
    List.takeWhile_append_of_pos hall
  have hdrop : (decimal n ++ []).dropWhile isDigit = [].dropWhile isDigit :=
    List.dropWhile_append_of_pos hall
  rw [List.append_nil] at htake hdrop
  rw [htake, hdrop]
  simp

theorem readDigits_decimal (negative : Bool) (n : Nat) :
    readDigits negative (decimal n) = (wholeNumber negative (decimal n)).map (·, []) := by
  rw [readDigits_eq, digitRun_decimal, if_neg]
  · rfl
  · rintro (hempty | ⟨hhead, hlength⟩)
    · exact decimal_ne_nil n (List.isEmpty_iff.mp hempty)
    · rw [decimal_head_zero hhead] at hlength
      exact absurd hlength (by decide)

def FitsWord : Int -> Prop
  | .ofNat n => n < wordLimit
  | .negSucc n => n < Nat.pow 2 63

theorem readNumber_printInt {value : Int} (h : FitsWord value) :
    readNumber (printInt value) = some (.int value, []) := by
  cases value with
  | ofNat n =>
      have hplain : readNumber (decimal n) = readDigits false (decimal n) := by
        cases hdigits : decimal n with
        | nil => exact absurd hdigits (decimal_ne_nil n)
        | cons c rest =>
            have hdigit : isDigit c = true :=
              isDigit_of_mem_decimal (hdigits ▸ List.mem_cons_self)
            unfold readNumber
            split
            · rename_i heq
              cases heq
              cases hdigit
            · rfl
      change readNumber (decimal n) = _
      rw [hplain, readDigits_decimal]
      unfold wholeNumber
      rw [decimalValue_decimal]
      dsimp only
      rw [if_pos ⟨rfl, h⟩]
      rfl
  | negSucc n =>
      change readDigits true (decimal (n + 1)) = _
      rw [readDigits_decimal]
      unfold wholeNumber
      rw [decimalValue_decimal]
      dsimp only
      rw [if_neg (by simp), if_pos ⟨rfl, Nat.succ_pos n, h⟩]
      rfl

end Json
end LessonPress

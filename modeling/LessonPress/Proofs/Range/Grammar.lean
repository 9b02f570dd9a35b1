import LessonPress.Proofs.Text.Decimal
import LessonPress.Proofs.Text.Lines
import LessonPress.Range.RangeList
import Mathlib.Data.List.Forall2

/-!
# How range lists are spelled

## The texts that are read as a list of ranges

A number is a run of digits with blanks around it, a range is one number or two with a hyphen
between them, and a list has a comma between each two of its ranges.  Reading takes exactly the
texts that are spelled in this way.  In any other text it finds the first item that is not
spelled as a range.
-/

namespace LessonPress

open Text

/-- A line number with blanks around its digits; zeros in front do no harm. -/
inductive SpelledNumber : List Char -> Nat -> Prop where
  | digits {before digits after : List Char} : isBlankLine before = true ->
      isBlankLine after = true -> digits ≠ [] -> (forall c, c ∈ digits -> isDigit c = true) ->
      decimalValue digits < RangeList.numberLimit ->
      SpelledNumber (before ++ digits ++ after) (decimalValue digits)

inductive LineRange.Spelled : List Char -> LineRange -> Prop where
  | single {text : List Char} {line : Nat} : SpelledNumber text line -> Spelled text (.single line)
  | span {first second : List Char} {start stop : Nat} : SpelledNumber first start ->
      SpelledNumber second stop -> Spelled (first ++ '-' :: second) ⟨start, stop⟩

def RangeList.Spelled (text : List Char) (ranges : RangeList) : Prop :=
  exists items, Pieces ',' text items ∧ List.Forall₂ LineRange.Spelled items ranges

def RangeList.Malformed (item : List Char) : Prop :=
  forall range, ¬ LineRange.Spelled item range

namespace RangeList

/-!
# Numbers
-/

theorem readNumber_eq_some_iff {digits : List Char} {n : Nat} :
    readNumber digits = some n <->
      digits ≠ [] ∧ (forall c, c ∈ digits -> isDigit c = true) ∧
        decimalValue digits < numberLimit ∧ decimalValue digits = n := by
  unfold readNumber
  split
  · rename_i hbad
    rw [Bool.or_eq_true, List.isEmpty_iff, Bool.not_eq_true', List.all_eq_false] at hbad
    constructor
    · intro h
      cases h
    · intro h
      cases hbad with
      | inl hempty => exact absurd hempty h.left
      | inr hother =>
          rcases hother with ⟨c, hc, hdigit⟩
          exact absurd (h.right.left c hc) hdigit
  · rename_i hgood
    rw [Bool.or_eq_true, List.isEmpty_iff, Bool.not_eq_true', List.all_eq_false, not_or] at hgood
    have hdigits : forall c, c ∈ digits -> isDigit c = true := fun c hc =>
      Decidable.not_not.mp fun hdigit => hgood.right ⟨c, hc, hdigit⟩
    dsimp only
    split
    · rename_i hbelow
      rw [Option.some.injEq]
      exact ⟨fun h => ⟨hgood.left, hdigits, hbelow, h⟩, fun h => h.right.right.right⟩
    · rename_i habove
      constructor
      · intro h
        cases h
      · intro h
        exact absurd h.right.right.left habove

theorem trimmed_of_digits {digits : List Char} (h : forall c, c ∈ digits -> isDigit c = true) :
    Trimmed digits :=
  trimmed_of_ends (fun c hc => not_blank_of_isDigit (h c (List.mem_of_mem_head? hc)))
    fun c hc => not_blank_of_isDigit (h c (List.mem_of_getLast? hc))

end RangeList

namespace SpelledNumber

theorem iff_read {text : List Char} {n : Nat} :
    SpelledNumber text n <-> RangeList.readNumber (trim text) = some n := by
  constructor
  · intro h
    cases h with
    | digits hbefore hafter hne hdigits hbelow =>
        rw [(RangeList.trimmed_of_digits hdigits).trim_between hbefore hafter,
          RangeList.readNumber_eq_some_iff]
        exact ⟨hne, hdigits, hbelow, rfl⟩
  · intro h
    rcases exists_trim text with ⟨before, after, hbefore, hafter, htext⟩
    rcases RangeList.readNumber_eq_some_iff.mp h with ⟨hne, hdigits, hbelow, hvalue⟩
    rw [htext, ← hvalue]
    exact .digits hbefore hafter hne hdigits hbelow

theorem between {text : List Char} {n : Nat} (h : SpelledNumber text n)
    {before after : List Char} (hbefore : isBlankLine before = true)
    (hafter : isBlankLine after = true) : SpelledNumber (before ++ text ++ after) n := by
  cases h with
  | @digits front digits back hfront hback hne hdigits hbelow =>
      have hstart : isBlankLine (before ++ front) = true := by
        unfold isBlankLine at hbefore hfront ⊢
        rw [List.all_append, hbefore, hfront, Bool.true_and]
      have hend : isBlankLine (back ++ after) = true := by
        unfold isBlankLine at hback hafter ⊢
        rw [List.all_append, hback, hafter, Bool.true_and]
      have hspelled := SpelledNumber.digits hstart hend hne hdigits hbelow
      simpa only [List.append_assoc] using hspelled

theorem not_mem {text : List Char} {n : Nat} (h : SpelledNumber text n) {c : Char}
    (hblank : isBlank c = false) (hdigit : isDigit c = false) : c ∉ text := by
  have hoff : forall gap : List Char, isBlankLine gap = true -> c ∉ gap := by
    intro gap hgap hmem
    rw [List.all_eq_true.mp hgap c hmem] at hblank
    cases hblank
  cases h with
  | digits hbefore hafter hne hdigits hbelow =>
      rw [List.mem_append, List.mem_append]
      intro hmem
      rcases hmem with (hmem | hmem) | hmem
      · exact hoff _ hbefore hmem
      · rw [hdigits c hmem] at hdigit
        cases hdigit
      · exact hoff _ hafter hmem

end SpelledNumber

namespace RangeList

/-!
# Items
-/

theorem cutAt_of_not_mem {separator : Char} {text : List Char} (h : separator ∉ text) :
    cutAt separator text = none := by
  cases hcut : cutAt separator text with
  | none => rfl
  | some parts =>
      rcases eq_append_of_cutAt hcut with ⟨_, htext⟩
      rw [htext] at h
      exact absurd (List.mem_append_right _ List.mem_cons_self) h

theorem itemParts_of_cutAt_none {item : List Char} (h : cutAt '-' item = none) :
    itemParts item = (item, item) := by
  unfold itemParts
  rw [h]

theorem itemParts_append {first : List Char} (h : '-' ∉ first) (second : List Char) :
    itemParts (first ++ '-' :: second) = (trim first, trim second) := by
  unfold itemParts
  rw [cutAt_append h]

theorem trim_span {first second : List Char} {start stop : Nat} (hfirst : SpelledNumber first start)
    (hsecond : SpelledNumber second stop) :
    exists front back, trim (first ++ '-' :: second) = front ++ '-' :: back ∧
      SpelledNumber front start ∧ SpelledNumber back stop := by
  cases hfirst with
  | @digits before left inner hbefore hinner hleft hleftDigits hleftBelow =>
      cases hsecond with
      | @digits outer right after houter hafter hright hrightDigits hrightBelow =>
          have hmiddle : Trimmed (left ++ inner ++ '-' :: (outer ++ right)) := by
            refine trimmed_of_ends (fun c hc => ?_) fun c hc => ?_
            · rw [List.append_assoc, List.head?_append_of_ne_nil _ hleft] at hc
              exact not_blank_of_isDigit (hleftDigits c (List.mem_of_mem_head? hc))
            · rw [← List.cons_append, ← List.append_assoc, List.getLast?_append_of_ne_nil _ hright]
                at hc
              exact not_blank_of_isDigit (hrightDigits c (List.mem_of_getLast? hc))
          refine ⟨left ++ inner, outer ++ right, ?_, ?_, ?_⟩
          · have htrim := hmiddle.trim_between hbefore hafter
            simpa only [List.append_assoc, List.cons_append] using htrim
          · have hspelled : SpelledNumber ([] ++ left ++ inner) _ :=
              .digits rfl hinner hleft hleftDigits hleftBelow
            exact hspelled
          · have hspelled : SpelledNumber (outer ++ right ++ []) _ :=
              .digits houter rfl hright hrightDigits hrightBelow
            rw [List.append_nil] at hspelled
            exact hspelled

theorem readItem_eq_ok_iff_parts {item : List Char} {range : LineRange} :
    readItem item = .ok range <->
      readNumber (itemParts (trim item)).1 = some range.start ∧
        readNumber (itemParts (trim item)).2 = some range.stop := by
  unfold readItem
  dsimp only
  cases hstart : readNumber (itemParts (trim item)).1 with
  | none => simp
  | some start =>
      cases hstop : readNumber (itemParts (trim item)).2 with
      | none => simp
      | some stop =>
          cases range with
          | mk first last => simp

theorem readItem_eq_error {item : List Char} {fault : RangeError}
    (h : readItem item = .error fault) : fault = .malformed (String.ofList (trim item)) := by
  unfold readItem at h
  dsimp only at h
  split at h
  · cases h
  · exact (Except.error.inj h).symm

theorem readItem_eq_ok_iff {item : List Char} {range : LineRange} :
    readItem item = .ok range <-> LineRange.Spelled item range := by
  rw [readItem_eq_ok_iff_parts]
  constructor
  · rintro ⟨hstart, hstop⟩
    rcases exists_trim item with ⟨before, after, hbefore, hafter, hitem⟩
    cases hcut : cutAt '-' (trim item) with
    | none =>
        rw [itemParts_of_cutAt_none hcut] at hstart hstop
        have hsame : range.start = range.stop := Option.some.inj (hstart.symm.trans hstop)
        have hrange : range = .single range.start := by
          cases range with
          | mk first last => exact congrArg (LineRange.mk first) hsame.symm
        rw [hrange]
        exact .single (SpelledNumber.iff_read.mpr hstart)
    | some parts =>
        rcases parts with ⟨first, second⟩
        rcases eq_append_of_cutAt hcut with ⟨hfirst, htrim⟩
        rw [htrim, itemParts_append hfirst] at hstart hstop
        have hleft : SpelledNumber (before ++ first ++ []) range.start :=
          (SpelledNumber.iff_read.mpr hstart).between hbefore rfl
        have hright : SpelledNumber ([] ++ second ++ after) range.stop :=
          (SpelledNumber.iff_read.mpr hstop).between rfl hafter
        have hspelled := LineRange.Spelled.span hleft hright
        rw [hitem, htrim]
        simpa only [List.append_assoc, List.append_nil, List.nil_append, List.cons_append]
          using hspelled
  · intro h
    cases h with
    | single hnumber =>
        have hplain : '-' ∉ trim item := fun hmem =>
          hnumber.not_mem (by decide) (by decide) ((infix_trim item).mem hmem)
        rw [itemParts_of_cutAt_none (cutAt_of_not_mem hplain)]
        have hread := SpelledNumber.iff_read.mp hnumber
        exact ⟨hread, hread⟩
    | span hfirst hsecond =>
        rcases trim_span hfirst hsecond with ⟨front, back, htrim, hfront, hback⟩
        have hplain : '-' ∉ front := hfront.not_mem (by decide) (by decide)
        rw [htrim, itemParts_append hplain]
        exact ⟨SpelledNumber.iff_read.mp hfront, SpelledNumber.iff_read.mp hback⟩

theorem comma_not_mem_of_spelled {item : List Char} {range : LineRange}
    (h : LineRange.Spelled item range) : ',' ∉ item := by
  cases h with
  | single hnumber => exact hnumber.not_mem (by decide) (by decide)
  | span hfirst hsecond =>
      rw [List.mem_append, List.mem_cons]
      rintro (hmem | hhyphen | hmem)
      · exact hfirst.not_mem (by decide) (by decide) hmem
      · cases hhyphen
      · exact hsecond.not_mem (by decide) (by decide) hmem

/-!
# Lists of items
-/

theorem readItems_eq_ok_iff {items : List (List Char)} {ranges : List LineRange} :
    readItems items = .ok ranges <-> List.Forall₂ LineRange.Spelled items ranges := by
  induction items generalizing ranges with
  | nil =>
      rw [readItems, List.forall₂_nil_left_iff, Except.ok.injEq]
      exact eq_comm
  | cons item rest ih =>
      rw [readItems, List.forall₂_cons_left_iff]
      constructor
      · intro h
        cases hitem : readItem item with
        | error fault =>
            rw [hitem] at h
            cases h
        | ok range =>
            cases hrest : readItems rest with
            | error fault =>
                rw [hitem, hrest] at h
                cases h
            | ok others =>
                rw [hitem, hrest] at h
                exact ⟨range, others, readItem_eq_ok_iff.mp hitem, ih.mp hrest,
                  (Except.ok.inj h).symm⟩
      · rintro ⟨range, others, hitem, hrest, rfl⟩
        rw [readItem_eq_ok_iff.mpr hitem, ih.mpr hrest]

theorem malformed_iff {item : List Char} :
    Malformed item <-> readItem item = .error (.malformed (String.ofList (trim item))) := by
  constructor
  · intro h
    cases hitem : readItem item with
    | error fault => rw [readItem_eq_error hitem]
    | ok range => exact absurd (readItem_eq_ok_iff.mp hitem) (h range)
  · intro h range hspelled
    rw [readItem_eq_ok_iff.mpr hspelled] at h
    cases h

theorem readItems_eq_error_iff {items : List (List Char)} {fault : RangeError} :
    readItems items = .error fault <->
      exists front item rest, items = front ++ item :: rest ∧
        (forall other, other ∈ front -> exists range, LineRange.Spelled other range) ∧
        Malformed item ∧ fault = .malformed (String.ofList (trim item)) := by
  constructor
  · intro h
    induction items with
    | nil => cases h
    | cons item rest ih =>
        rw [readItems] at h
        cases hitem : readItem item with
        | error cause =>
            have hcause := readItem_eq_error hitem
            rw [hitem] at h
            refine ⟨[], item, rest, rfl, nofun, ?_, (Except.error.inj h).symm.trans hcause⟩
            rw [malformed_iff, hitem, hcause]
        | ok range =>
            cases hrest : readItems rest with
            | ok others =>
                rw [hitem, hrest] at h
                cases h
            | error cause =>
                rw [hitem, hrest] at h
                rcases ih (hrest.trans h) with ⟨front, bad, others, rfl, hfront, hbad, hfault⟩
                refine ⟨item :: front, bad, others, rfl, ?_, hbad, hfault⟩
                intro other hother
                cases List.mem_cons.mp hother with
                | inl heq => exact ⟨range, heq ▸ readItem_eq_ok_iff.mp hitem⟩
                | inr hlater => exact hfront other hlater
  · rintro ⟨front, item, rest, rfl, hfront, hbad, rfl⟩
    induction front with
    | nil => rw [List.nil_append, readItems, malformed_iff.mp hbad]
    | cons first others ih =>
        rcases hfront first List.mem_cons_self with ⟨range, hrange⟩
        have hothers := ih fun other hother => hfront other (List.mem_cons_of_mem _ hother)
        rw [List.cons_append, readItems, readItem_eq_ok_iff.mpr hrange, hothers]

theorem spelled_iff {text : List Char} {ranges : List LineRange} :
    Spelled text ranges <-> readItems (splitAt ',' text) = .ok ranges := by
  rw [readItems_eq_ok_iff]
  constructor
  · rintro ⟨items, hitems, hranges⟩
    rw [pieces_iff.mp hitems]
    exact hranges
  · intro h
    exact ⟨splitAt ',' text, pieces_iff.mpr rfl, h⟩

end RangeList
end LessonPress

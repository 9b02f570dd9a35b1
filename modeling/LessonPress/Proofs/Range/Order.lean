import LessonPress.Proofs.Range.Grammar
import Mathlib.Data.List.Chain

/-!
# The order of ranges

## Which ranges of a list are accepted, and what is said of the others

A range is accepted if those accepted before it and itself stand in order.  Each range that is
not accepted has one fault, and the ranges after it are held against the last one that was.
-/

namespace LessonPress

theorem LineRange.overlaps_iff {range other : LineRange} :
    range.overlaps other = true <-> range.start ≤ other.stop ∧ other.start ≤ range.stop := by
  unfold overlaps
  rw [Bool.and_eq_true, decide_eq_true_eq, decide_eq_true_eq]

theorem LineRange.contains_iff {range other : LineRange} :
    range.contains other = true <-> range.start ≤ other.start ∧ other.stop ≤ range.stop := by
  unfold contains
  rw [Bool.and_eq_true, decide_eq_true_eq, decide_eq_true_eq]

namespace RangeList

open LineRange (overlaps_iff)

theorem covers_iff {ranges : RangeList} {range : LineRange} :
    ranges.covers range = true <->
      exists outer, outer ∈ ranges ∧ outer.start ≤ range.start ∧ range.stop ≤ outer.stop := by
  unfold covers
  rw [List.any_eq_true]
  exact exists_congr fun outer => and_congr_right fun _ => LineRange.contains_iff

/-- Ranges of at least one line each, of which each starts after the one before it ends. -/
structure Ascending (ranges : List LineRange) : Prop where
  lines : forall range, range ∈ ranges -> 1 ≤ range.start ∧ range.start ≤ range.stop
  chain : ranges.IsChain fun range next => range.stop < next.start

inductive Refused (last : Option LineRange) (range : LineRange) : RangeError -> Prop where
  | zero : range.start = 0 -> Refused last range (.zero range)
  | descending : 1 ≤ range.start -> range.stop < range.start ->
      Refused last range (.descending range)
  | overlap {previous : LineRange} {line : Nat} : last = some previous -> 1 ≤ range.start ->
      previous.start ≤ line -> line ≤ previous.stop -> range.start ≤ line -> line ≤ range.stop ->
      Refused last range (.overlap previous range)
  | outOfOrder {previous : LineRange} : last = some previous -> 1 ≤ range.start ->
      range.start ≤ range.stop -> range.stop < previous.start ->
      Refused last range (.outOfOrder previous range)

/-- Ranges in the order in which they are checked, those of them that are accepted, and the
faults of the others. -/
inductive Checked : List LineRange -> List LineRange -> List RangeError -> Prop where
  | nil : Checked [] [] []
  | accepted {ranges passed : List LineRange} {faults : List RangeError} {range : LineRange} :
      Checked ranges passed faults -> Ascending (passed ++ [range]) ->
      Checked (ranges ++ [range]) (passed ++ [range]) faults
  | refused {ranges passed : List LineRange} {faults : List RangeError} {range : LineRange}
      {fault : RangeError} : Checked ranges passed faults -> Refused passed.getLast? range fault ->
      Checked (ranges ++ [range]) passed (faults ++ [fault])

/-!
# One range
-/

theorem ascending_nil : Ascending [] where
  lines := nofun
  chain := .nil

theorem ascending_concat_iff {passed : List LineRange} {range : LineRange} :
    Ascending (passed ++ [range]) <->
      Ascending passed ∧ 1 ≤ range.start ∧ range.start ≤ range.stop ∧
        forall last, passed.getLast? = some last -> last.stop < range.start := by
  constructor
  · intro h
    have hchain := List.isChain_append.mp h.chain
    have hrange := h.lines range (List.mem_append_right _ (List.mem_singleton_self range))
    refine ⟨⟨fun other hother => h.lines other (List.mem_append_left _ hother), hchain.left⟩,
      hrange.left, hrange.right, fun last hlast => ?_⟩
    exact hchain.right.right last hlast range rfl
  · rintro ⟨hpassed, hstart, hstop, hlast⟩
    constructor
    case lines =>
      intro other hother
      cases List.mem_append.mp hother with
      | inl hearlier => exact hpassed.lines other hearlier
      | inr hown =>
          rw [List.mem_singleton.mp hown]
          exact ⟨hstart, hstop⟩
    case chain =>
      refine List.isChain_append.mpr ⟨hpassed.chain, .singleton range, ?_⟩
      intro last hmem next hnext
      rw [← Option.some.inj hnext]
      exact hlast last hmem

theorem Ascending.last {passed : List LineRange} (h : Ascending passed) {last : LineRange}
    (hlast : passed.getLast? = some last) : 1 ≤ last.start ∧ last.start ≤ last.stop :=
  h.lines last (List.mem_of_getLast? hlast)

/-- Each range ends before any later one starts, and not only before the next. -/
theorem Ascending.pairwise {ranges : List LineRange} (h : Ascending ranges) :
    ranges.Pairwise fun range later => range.stop < later.start := by
  induction ranges with
  | nil => exact .nil
  | cons range rest ih =>
      have hrest : Ascending rest :=
        ⟨fun other hother => h.lines other (List.mem_cons_of_mem _ hother), h.chain.tail⟩
      have hpairwise := ih hrest
      refine List.pairwise_cons.mpr ⟨fun later hlater => ?_, hpairwise⟩
      cases rest with
      | nil => cases hlater
      | cons next more =>
          have hnext := (List.isChain_cons_cons.mp h.chain).left
          cases List.mem_cons.mp hlater with
          | inl heq =>
              rw [heq]
              exact hnext
          | inr hmore =>
              have hlines := hrest.lines next List.mem_cons_self
              have hbehind := List.rel_of_pairwise_cons hpairwise hmore
              omega

theorem orderFault_eq_none_iff {passed : List LineRange} (h : Ascending passed)
    {range : LineRange} :
    orderFault passed.getLast? range = none <-> Ascending (passed ++ [range]) := by
  rw [ascending_concat_iff]
  unfold orderFault
  by_cases hzero : range.start = 0
  · rw [if_pos hzero]
    constructor
    · nofun
    · rintro ⟨_, hstart, _⟩
      omega
  · rw [if_neg hzero]
    by_cases hdescending : range.stop < range.start
    · rw [if_pos hdescending]
      constructor
      · nofun
      · rintro ⟨_, _, hstop, _⟩
        omega
    · rw [if_neg hdescending]
      cases hlast : passed.getLast? with
      | none =>
          constructor
          · exact fun _ => ⟨h, by omega, by omega, nofun⟩
          · exact fun _ => rfl
      | some last =>
          have hlines := h.last hlast
          dsimp only
          constructor
          · intro hnone
            refine ⟨h, by omega, by omega, fun other hother => ?_⟩
            rw [← Option.some.inj hother]
            split at hnone
            · cases hnone
            · rename_i hapart
              rw [overlaps_iff] at hapart
              split at hnone
              · cases hnone
              · omega
          · rintro ⟨_, _, _, hafter⟩
            have hbehind := hafter last rfl
            have hapart : ¬ last.overlaps range = true := by
              rw [overlaps_iff]
              omega
            rw [if_neg hapart, if_neg (by omega)]

theorem orderFault_eq_some_iff {passed : List LineRange} (h : Ascending passed)
    {range : LineRange} {fault : RangeError} :
    orderFault passed.getLast? range = some fault <-> Refused passed.getLast? range fault := by
  unfold orderFault
  constructor
  · intro hfault
    split at hfault
    · rename_i hzero
      rw [← Option.some.inj hfault]
      exact .zero hzero
    · split at hfault
      · rename_i hzero hdescending
        rw [← Option.some.inj hfault]
        exact .descending (by omega) hdescending
      · cases hlast : passed.getLast? with
        | none =>
            rw [hlast] at hfault
            cases hfault
        | some last =>
            have hlines := h.last hlast
            rw [hlast] at hfault
            dsimp only at hfault
            split at hfault
            · rename_i hoverlaps
              rw [overlaps_iff] at hoverlaps
              rw [← Option.some.inj hfault]
              -- the later one of the two first lines is in both ranges
              have hleft : last.start ≤ max last.start range.start := Nat.le_max_left _ _
              have hright : range.start ≤ max last.start range.start := Nat.le_max_right _ _
              exact .overlap rfl (by omega) hleft (by omega) hright (by omega)
            · rename_i hapart
              rw [overlaps_iff] at hapart
              split at hfault
              · rw [← Option.some.inj hfault]
                exact .outOfOrder rfl (by omega) (by omega) (by omega)
              · cases hfault
  · intro hrefused
    cases hrefused with
    | zero hzero => rw [if_pos hzero]
    | descending hstart hstop => rw [if_neg (by omega), if_pos hstop]
    | @overlap previous line hlast hstart hfirst hend hbelow habove =>
        rw [if_neg (by omega), if_neg (by omega), hlast]
        have hoverlaps : previous.overlaps range = true := by
          rw [overlaps_iff]
          omega
        dsimp only
        rw [if_pos hoverlaps]
    | @outOfOrder previous hlast hstart hstop hbefore =>
        have hlines := h.last hlast
        rw [if_neg (by omega), if_neg (by omega), hlast]
        have hapart : ¬ previous.overlaps range = true := by
          rw [overlaps_iff]
          omega
        dsimp only
        rw [if_neg hapart, if_pos (by omega)]

/-!
# All ranges
-/

namespace Checked

variable {ranges passed : List LineRange} {faults : List RangeError}

theorem ascending (h : Checked ranges passed faults) : Ascending passed := by
  induction h with
  | nil => exact ascending_nil
  | accepted _ hnext _ => exact hnext
  | refused _ _ ih => exact ih

/-- What is checked first has its faults first, and the rest is held against the last range
that was accepted. -/
theorem orderFaults_append (h : Checked ranges passed faults) (rest : List LineRange) :
    orderFaults none (ranges ++ rest) = faults ++ orderFaults passed.getLast? rest := by
  induction h generalizing rest with
  | nil => rfl
  | accepted hearlier hnext ih =>
      rw [List.append_assoc, List.singleton_append, ih, orderFaults,
        (orderFault_eq_none_iff hearlier.ascending).mpr hnext, List.getLast?_concat]
  | refused hearlier hfault ih =>
      rw [List.append_assoc, List.singleton_append, ih, orderFaults,
        (orderFault_eq_some_iff hearlier.ascending).mpr hfault, List.append_assoc,
        List.singleton_append]

theorem orderFaults_eq (h : Checked ranges passed faults) : orderFaults none ranges = faults := by
  have hall := h.orderFaults_append []
  rw [List.append_nil, orderFaults, List.append_nil] at hall
  exact hall

theorem passed_eq (h : Checked ranges passed faults) (hnone : faults = []) : passed = ranges := by
  induction h with
  | nil => rfl
  | accepted _ _ ih => rw [ih hnone]
  | refused _ _ _ => exact absurd hnone (by simp)

end Checked

theorem exists_checked (ranges : List LineRange) :
    exists passed faults, Checked ranges passed faults := by
  induction ranges using List.reverseRecOn with
  | nil => exact ⟨[], [], .nil⟩
  | append_singleton ranges range ih =>
      rcases ih with ⟨passed, faults, hchecked⟩
      cases hfault : orderFault passed.getLast? range with
      | none =>
          have hnext := (orderFault_eq_none_iff hchecked.ascending).mp hfault
          exact ⟨passed ++ [range], faults, hchecked.accepted hnext⟩
      | some fault =>
          have hrefused := (orderFault_eq_some_iff hchecked.ascending).mp hfault
          exact ⟨passed, faults ++ [fault], hchecked.refused hrefused⟩

theorem checked_of_ascending {ranges : List LineRange} (h : Ascending ranges) :
    Checked ranges ranges [] := by
  induction ranges using List.reverseRecOn with
  | nil => exact .nil
  | append_singleton ranges range ih =>
      exact (ih (ascending_concat_iff.mp h).left).accepted h

theorem orderFaults_eq_nil_iff {ranges : List LineRange} :
    orderFaults none ranges = [] <-> Ascending ranges := by
  constructor
  · intro h
    rcases exists_checked ranges with ⟨passed, faults, hchecked⟩
    have hpassed := hchecked.passed_eq (hchecked.orderFaults_eq.symm.trans h)
    rw [← hpassed]
    exact hchecked.ascending
  · intro h
    exact (checked_of_ascending h).orderFaults_eq

/-!
# Reading and writing
-/

open Text

/-- The text has an item that is not spelled as a range, and the fault is that of the first. -/
def FirstMalformed (text : List Char) (fault : RangeError) : Prop :=
  exists front item rest, Pieces ',' text (front ++ item :: rest) ∧
    (forall other, other ∈ front -> exists range, LineRange.Spelled other range) ∧
    Malformed item ∧ fault = .malformed (String.ofList (trim item))

theorem firstMalformed_iff {text : List Char} {fault : RangeError} :
    FirstMalformed text fault <-> readItems (splitAt ',' text) = .error fault := by
  rw [readItems_eq_error_iff]
  constructor
  · rintro ⟨front, item, rest, hpieces, hfront, hitem, hfault⟩
    exact ⟨front, item, rest, pieces_iff.mp hpieces, hfront, hitem, hfault⟩
  · rintro ⟨front, item, rest, hsplit, hfront, hitem, hfault⟩
    exact ⟨front, item, rest, pieces_iff.mpr hsplit, hfront, hitem, hfault⟩

theorem parse_of_malformed {text : String} {fault : RangeError}
    (h : FirstMalformed text.toList fault) : parse text = .error [fault] := by
  unfold parse
  rw [firstMalformed_iff.mp h]

theorem parse_of_spelled {text : String} {ranges passed : List LineRange}
    {faults : List RangeError} (hspelled : Spelled text.toList ranges)
    (hchecked : Checked ranges passed faults) :
    parse text = if faults = [] then .ok ranges else .error faults := by
  unfold parse
  rw [spelled_iff.mp hspelled]
  dsimp only
  rw [hchecked.orderFaults_eq]
  cases faults <;> rfl

theorem malformed_or_spelled (text : List Char) :
    (exists fault, FirstMalformed text fault) ∨ exists ranges, Spelled text ranges := by
  cases hitems : readItems (splitAt ',' text) with
  | error fault => exact Or.inl ⟨fault, firstMalformed_iff.mpr hitems⟩
  | ok ranges => exact Or.inr ⟨ranges, spelled_iff.mpr hitems⟩

theorem parse_eq_ok_iff {text : String} {ranges : RangeList} :
    parse text = .ok ranges <-> Spelled text.toList ranges ∧ Ascending ranges := by
  constructor
  · intro h
    rcases malformed_or_spelled text.toList with ⟨fault, hfault⟩ | ⟨others, hspelled⟩
    · rw [parse_of_malformed hfault] at h
      cases h
    · rcases exists_checked others with ⟨passed, faults, hchecked⟩
      rw [parse_of_spelled hspelled hchecked] at h
      split at h
      · rename_i hnone
        rw [← Except.ok.inj h, ← orderFaults_eq_nil_iff, hchecked.orderFaults_eq]
        exact ⟨hspelled, hnone⟩
      · cases h
  · rintro ⟨hspelled, hascending⟩
    exact (parse_of_spelled hspelled (checked_of_ascending hascending)).trans (if_pos rfl)

theorem parse_eq_error_iff {text : String} {faults : List RangeError} :
    parse text = .error faults <->
      (exists fault, FirstMalformed text.toList fault ∧ faults = [fault]) ∨
        exists ranges passed, Spelled text.toList ranges ∧ Checked ranges passed faults ∧
          faults ≠ [] := by
  constructor
  · intro h
    rcases malformed_or_spelled text.toList with ⟨fault, hfault⟩ | ⟨ranges, hspelled⟩
    · rw [parse_of_malformed hfault] at h
      exact Or.inl ⟨fault, hfault, (Except.error.inj h).symm⟩
    · rcases exists_checked ranges with ⟨passed, found, hchecked⟩
      rw [parse_of_spelled hspelled hchecked] at h
      split at h
      · cases h
      · rename_i hsome
        rw [← Except.error.inj h]
        exact Or.inr ⟨ranges, passed, hspelled, hchecked, hsome⟩
  · rintro (⟨fault, hfault, rfl⟩ | ⟨ranges, passed, hspelled, hchecked, hsome⟩)
    · exact parse_of_malformed hfault
    · rw [parse_of_spelled hspelled hchecked, if_neg hsome]

theorem ne_nil_of_parse {text : String} {ranges : RangeList} (h : parse text = .ok ranges) :
    ranges ≠ [] := by
  rcases (parse_eq_ok_iff.mp h).left with ⟨items, hitems, hranges⟩
  rintro rfl
  exact hitems.nonempty (List.forall₂_nil_right_iff.mp hranges)

theorem ne_nil_of_parse_error {text : String} {faults : List RangeError}
    (h : parse text = .error faults) : faults ≠ [] := by
  rcases parse_eq_error_iff.mp h with ⟨fault, _, rfl⟩ | ⟨ranges, passed, _, _, hsome⟩
  · exact List.cons_ne_nil _ _
  · exact hsome

theorem spelledNumber_decimal {n : Nat} (h : n < numberLimit) : SpelledNumber (decimal n) n := by
  have hbelow : decimalValue (decimal n) < numberLimit := by
    rw [decimalValue_decimal]
    exact h
  have hspelled : SpelledNumber ([] ++ decimal n ++ []) (decimalValue (decimal n)) :=
    .digits rfl rfl (decimal_ne_nil n) (fun _ hc => isDigit_of_mem_decimal hc) hbelow
  rw [decimalValue_decimal, List.append_nil] at hspelled
  exact hspelled

theorem spelled_display {range : LineRange} (hstart : range.start < numberLimit)
    (hstop : range.stop < numberLimit) : LineRange.Spelled range.display range := by
  unfold LineRange.display
  cases range with
  | mk start stop =>
      dsimp only at hstart hstop ⊢
      split
      · rename_i hsingle
        rw [← hsingle]
        exact .single (spelledNumber_decimal hstart)
      · exact .span (spelledNumber_decimal hstart) (spelledNumber_decimal hstop)

theorem spelled_displayAll {ranges : RangeList} (hne : ranges ≠ [])
    (h : forall range, range ∈ ranges -> range.start < numberLimit ∧ range.stop < numberLimit) :
    Spelled ranges.display ranges := by
  have hspelled : forall range, range ∈ ranges -> LineRange.Spelled range.display range :=
    fun range hrange => spelled_display (h range hrange).left (h range hrange).right
  refine ⟨ranges.map LineRange.display, ?_, ?_⟩
  · constructor
    case nonempty => exact fun hnil => hne (List.map_eq_nil_iff.mp hnil)
    case plain =>
      intro item hitem
      rcases List.mem_map.mp hitem with ⟨range, hrange, rfl⟩
      exact comma_not_mem_of_spelled (hspelled range hrange)
    case joined => rfl
  · rw [List.forall₂_map_left_iff, List.forall₂_same]
    exact hspelled

theorem parse_displayString {ranges : RangeList} (hne : ranges ≠ []) (h : Ascending ranges)
    (hbelow : forall range, range ∈ ranges -> range.stop < numberLimit) :
    parse ranges.displayString = .ok ranges := by
  rw [parse_eq_ok_iff]
  refine ⟨?_, h⟩
  unfold displayString
  rw [String.toList_ofList]
  refine spelled_displayAll hne fun range hrange => ⟨?_, hbelow range hrange⟩
  exact Nat.lt_of_le_of_lt (h.lines range hrange).right (hbelow range hrange)

/-- Reading accepts exactly the texts that spell ranges in order, and gives these ranges.  In
another text it finds one fault, that of the first malformed item, or if no item is malformed one
fault for each range that is not accepted.  A list is read back from its displayed form. -/
theorem parse_decides (text : String) :
    (forall ranges, parse text = .ok ranges <-> Spelled text.toList ranges ∧ Ascending ranges) ∧
      (forall faults, parse text = .error faults <->
        (exists fault, FirstMalformed text.toList fault ∧ faults = [fault]) ∨
          exists ranges passed, Spelled text.toList ranges ∧ Checked ranges passed faults ∧
            faults ≠ []) ∧
      forall ranges : RangeList, ranges ≠ [] -> Ascending ranges ->
        (forall range, range ∈ ranges -> range.stop < numberLimit) ->
        parse ranges.displayString = .ok ranges := by
  constructor
  · intro ranges
    exact parse_eq_ok_iff
  · constructor
    · intro faults
      exact parse_eq_error_iff
    · intro ranges hne hascending hbelow
      exact parse_displayString hne hascending hbelow

theorem parse_decides_skipped :
    parse "3-5, 9-4 ,5,007" = .error [.descending ⟨9, 4⟩, .overlap ⟨3, 5⟩ ⟨5, 5⟩] ∧
      (exists ranges passed, Spelled "3-5, 9-4 ,5,007".toList ranges ∧
        Checked ranges passed [.descending ⟨9, 4⟩, .overlap ⟨3, 5⟩ ⟨5, 5⟩]) ∧
      parse (displayString [⟨3, 5⟩, ⟨7, 7⟩]) = .ok [⟨3, 5⟩, ⟨7, 7⟩] := by
  have hparse : parse "3-5, 9-4 ,5,007" =
      .error [.descending ⟨9, 4⟩, .overlap ⟨3, 5⟩ ⟨5, 5⟩] := by
    decide +kernel
  have hascending : Ascending [⟨3, 5⟩, ⟨7, 7⟩] := ⟨by decide, by decide⟩
  rcases parse_decides "3-5, 9-4 ,5,007" with ⟨_, herror, hdisplayed⟩
  refine ⟨hparse, ?_, hdisplayed _ (List.cons_ne_nil _ _) hascending (by decide)⟩
  rcases (herror _).mp hparse with ⟨fault, _, hfault⟩ | ⟨ranges, passed, hspelled, hchecked, _⟩
  · cases hfault
  · exact ⟨ranges, passed, hspelled, hchecked⟩

end RangeList
end LessonPress

import LessonPress.Diff.Spans

/-!
# Changed spans of two lines

## The same text stands around both spans

The spans of a pair start where the common prefix ends and stop where the common suffix
begins, so what they leave of the two lines is the same text.  The prefix is taken as long as
it can be and the suffix from what it leaves; no other choice of the two leaves less of the
lines inside of the spans.
-/

namespace LessonPress
namespace ChangedSpans

/-!
# Common ends
-/

theorem take_commonPrefixLength (old new : List Char) :
    old.take (commonPrefixLength old new) = new.take (commonPrefixLength old new) := by
  fun_induction commonPrefixLength old new with
  | case1 a old new ih => rw [List.take_succ_cons, List.take_succ_cons, ih]
  | case2 a old b new hne => rfl
  | case3 old new hcons => rfl

theorem commonPrefixLength_le_left (old new : List Char) :
    commonPrefixLength old new ≤ old.length := by
  fun_induction commonPrefixLength old new with
  | case1 a old new ih => exact Nat.succ_le_succ ih
  | case2 a old b new hne => exact Nat.zero_le _
  | case3 old new hcons => exact Nat.zero_le _

theorem commonPrefixLength_comm (old new : List Char) :
    commonPrefixLength old new = commonPrefixLength new old := by
  fun_induction commonPrefixLength old new with
  | case1 a old new ih => rw [commonPrefixLength, if_pos rfl, ih]
  | case2 a old b new hne => rw [commonPrefixLength, if_neg (Ne.symm hne)]
  | case3 old new hcons =>
      unfold commonPrefixLength
      split
      · rename_i a old b new
        exact absurd rfl (hcons b new a old rfl)
      · rfl

theorem commonPrefixLength_le_right (old new : List Char) :
    commonPrefixLength old new ≤ new.length := by
  rw [commonPrefixLength_comm]
  exact commonPrefixLength_le_left new old

theorem take_eq_of_le {old new : List Char} {size : Nat}
    (h : size ≤ commonPrefixLength old new) : old.take size = new.take size := by
  have htake := congrArg (List.take size) (take_commonPrefixLength old new)
  rw [List.take_take, List.take_take, Nat.min_eq_left h] at htake
  exact htake

/-!
# The longest common ends
-/

def SharesFront (old new : List Char) (size : Nat) : Prop :=
  exists front : List Char, front.length = size ∧ front <+: old ∧ front <+: new

def SharesBack (old new : List Char) (size : Nat) : Prop :=
  exists back : List Char, back.length = size ∧ back <:+ old ∧ back <:+ new

theorem sharesFront_iff {old new : List Char} {size : Nat} :
    SharesFront old new size <-> size ≤ commonPrefixLength old new := by
  constructor
  · rintro ⟨front, rfl, hold, hnew⟩
    induction front generalizing old new with
    | nil => exact Nat.zero_le _
    | cons c front ih =>
        obtain ⟨olds, rfl, holds⟩ := List.cons_prefix_iff.mp hold
        obtain ⟨news, rfl, hnews⟩ := List.cons_prefix_iff.mp hnew
        rw [commonPrefixLength, if_pos rfl]
        exact Nat.succ_le_succ (ih holds hnews)
  · intro hsize
    refine ⟨old.take size, ?_, List.take_prefix size old, ?_⟩
    · exact List.length_take_of_le (Nat.le_trans hsize (commonPrefixLength_le_left old new))
    · rw [take_eq_of_le hsize]
      exact List.take_prefix size new

theorem SharesFront.take_eq {old new : List Char} {size : Nat} (h : SharesFront old new size) :
    old.take size = new.take size := by
  obtain ⟨front, rfl, hold, hnew⟩ := h
  rw [← List.prefix_iff_eq_take.mp hold, ← List.prefix_iff_eq_take.mp hnew]

theorem SharesBack.drop_eq {old new : List Char} {size : Nat} (h : SharesBack old new size) :
    old.drop (old.length - size) = new.drop (new.length - size) := by
  obtain ⟨back, rfl, hold, hnew⟩ := h
  rw [← List.suffix_iff_eq_drop.mp hold, ← List.suffix_iff_eq_drop.mp hnew]

theorem sharesBack_iff_reverse {old new : List Char} {size : Nat} :
    SharesBack old new size <-> SharesFront old.reverse new.reverse size := by
  constructor
  · rintro ⟨back, hlength, hold, hnew⟩
    exact ⟨back.reverse, List.length_reverse.trans hlength, List.reverse_prefix.mpr hold,
      List.reverse_prefix.mpr hnew⟩
  · rintro ⟨front, hlength, hold, hnew⟩
    refine ⟨front.reverse, List.length_reverse.trans hlength, ?_, ?_⟩
    · rw [← List.reverse_prefix, List.reverse_reverse]
      exact hold
    · rw [← List.reverse_prefix, List.reverse_reverse]
      exact hnew

theorem sharesBack_iff {old new : List Char} {size : Nat} :
    SharesBack old new size <-> size ≤ commonPrefixLength old.reverse new.reverse :=
  sharesBack_iff_reverse.trans sharesFront_iff

/-- The length of the longest common prefix, and that of the longest common suffix of what the
prefix leaves of the shorter text. -/
structure LongestEnds (old new : List Char) (front back : Nat) : Prop where
  shares_front : SharesFront old new front
  front_most : forall size, SharesFront old new size -> size ≤ front
  shares_back : SharesBack old new back
  apart : front + back ≤ min old.length new.length
  back_most : forall size, SharesBack old new size ->
    front + size ≤ min old.length new.length -> size ≤ back

/-- A shorter prefix makes room for no more than it gives up. -/
theorem LongestEnds.add_le {old new : List Char} {front back : Nat}
    (h : LongestEnds old new front back) {size rest : Nat} (hfront : SharesFront old new size)
    (hback : SharesBack old new rest) (hapart : size + rest ≤ min old.length new.length) :
    size + rest ≤ front + back := by
  have hsize := h.front_most size hfront
  by_cases hroom : front + rest ≤ min old.length new.length
  · have hrest := h.back_most rest hback hroom
    omega
  · -- the part of the suffix that lies behind the longest prefix reaches up to it
    have hpart : SharesBack old new (min old.length new.length - front) :=
      sharesBack_iff.mpr (Nat.le_trans (by omega) (sharesBack_iff.mp hback))
    have hmost := h.back_most _ hpart (by have hapart' := h.apart; omega)
    omega

theorem longestEnds (old new : List Char) :
    LongestEnds old new (commonPrefixLength old new)
      (commonSuffixLength (min old.length new.length - commonPrefixLength old new) old new) := by
  have hold := commonPrefixLength_le_left old new
  have hnew := commonPrefixLength_le_right old new
  unfold commonSuffixLength
  constructor
  case shares_front => exact sharesFront_iff.mpr (Nat.le_refl _)
  case front_most => exact fun size hsize => sharesFront_iff.mp hsize
  case shares_back => exact sharesBack_iff.mpr (Nat.min_le_right _ _)
  case apart => omega
  case back_most =>
    intro size hsize hroom
    have hmost := sharesBack_iff.mp hsize
    omega

theorem LongestEnds.unique {old new : List Char} {front back front' back' : Nat}
    (h : LongestEnds old new front back) (h' : LongestEnds old new front' back') :
    front = front' ∧ back = back' := by
  have hfront : front = front' :=
    Nat.le_antisymm (h'.front_most front h.shares_front) (h.front_most front' h'.shares_front)
  subst hfront
  exact ⟨rfl, Nat.le_antisymm (h'.back_most back h.shares_back h.apart)
    (h.back_most back' h'.shares_back h'.apart)⟩

theorem LongestEnds.swap {old new : List Char} {front back : Nat}
    (h : LongestEnds old new front back) : LongestEnds new old front back := by
  have hfront : forall {size : Nat}, SharesFront new old size -> SharesFront old new size :=
    fun ⟨text, hlength, hnew, hold⟩ => ⟨text, hlength, hold, hnew⟩
  have hback : forall {size : Nat}, SharesBack new old size -> SharesBack old new size :=
    fun ⟨text, hlength, hnew, hold⟩ => ⟨text, hlength, hold, hnew⟩
  obtain ⟨⟨text, hlength, hold, hnew⟩, hmost, ⟨text', hlength', hold', hnew'⟩, hapart, hmost'⟩ := h
  rw [Nat.min_comm] at hapart hmost'
  exact ⟨⟨text, hlength, hnew, hold⟩, fun size hsize => hmost size (hfront hsize),
    ⟨text', hlength', hnew', hold'⟩, hapart, fun size hsize => hmost' size (hback hsize)⟩

/-!
# Spans of a comparison
-/

def between (old new : List Char) (front back : Nat) : ChangedSpans :=
  ⟨⟨front, old.length - back⟩, ⟨front, new.length - back⟩⟩

def longest (spans : ChangedSpans) : Nat :=
  max spans.removed.length spans.added.length

structure WorthMarking (limits : InlineLimits) (changed longer : Nat) : Prop where
  characters : changed ≤ limits.characters
  ratio : (limits.ratio.mul (.ofNat longer)).lt (.ofNat changed) = false

theorem compare_eq_ok_iff {old new : List Char} {front back : Nat}
    (h : LongestEnds old new front back) (limits : InlineLimits) {spans : ChangedSpans} :
    compare old new limits = .ok spans <->
      spans = between old new front back ∧ old ≠ new ∧ 0 < front + back ∧
        WorthMarking limits spans.longest (max old.length new.length) := by
  obtain ⟨rfl, rfl⟩ := h.unique (longestEnds old new)
  unfold compare
  dsimp only
  split
  · rename_i hsame
    exact ⟨nofun, fun hall => absurd hsame hall.right.left⟩
  · rename_i hsame
    split
    · rename_i hnone
      exact ⟨nofun, fun hall => absurd hall.right.right.left (by omega)⟩
    · rename_i hsome
      split
      · rename_i hlong
        refine ⟨nofun, ?_⟩
        rintro ⟨rfl, _, _, hworth⟩
        exact absurd hworth.characters (Nat.not_le_of_lt hlong)
      · rename_i hshort
        split
        · rename_i hmuch
          refine ⟨nofun, ?_⟩
          rintro ⟨rfl, _, _, hworth⟩
          exact absurd (hmuch.symm.trans hworth.ratio) nofun
        · rename_i hlittle
          constructor
          · rintro ⟨⟩
            exact ⟨rfl, hsame, by omega, Nat.le_of_not_lt hshort, Bool.eq_false_iff.mpr hlittle⟩
          · rintro ⟨rfl, _⟩
            rfl

structure Around (old new : List Char) (spans : ChangedSpans) : Prop where
  removed_le : spans.removed.start ≤ spans.removed.stop
  removed_length : spans.removed.stop ≤ old.length
  added_le : spans.added.start ≤ spans.added.stop
  added_length : spans.added.stop ≤ new.length
  cutOut : spans.removed.cutOut old = spans.added.cutOut new

theorem LongestEnds.around {old new : List Char} {front back : Nat}
    (h : LongestEnds old new front back) : Around old new (between old new front back) := by
  have hapart := h.apart
  unfold between
  constructor
  case removed_le =>
    dsimp only
    omega
  case removed_length => exact Nat.sub_le _ _
  case added_le =>
    dsimp only
    omega
  case added_length => exact Nat.sub_le _ _
  case cutOut =>
    unfold Span.cutOut
    dsimp only
    rw [h.shares_front.take_eq, h.shares_back.drop_eq]

theorem around_of_compare {old new : List Char} {limits : InlineLimits} {spans : ChangedSpans}
    (h : compare old new limits = .ok spans) : Around old new spans := by
  have hends := longestEnds old new
  obtain ⟨rfl, _⟩ := (compare_eq_ok_iff hends limits).mp h
  exact hends.around

theorem LongestEnds.some_between {old new : List Char} {front back : Nat}
    (h : LongestEnds old new front back) (hne : old ≠ new) :
    ¬ ((between old new front back).removed.isEmpty = true ∧
      (between old new front back).added.isEmpty = true) := by
  rintro ⟨hremoved, hadded⟩
  have hapart := h.apart
  have hold := of_decide_eq_true hremoved
  have hnew := of_decide_eq_true hadded
  unfold between at hold hnew
  dsimp only at hold hnew
  -- the prefix and the suffix make up both lines
  have hold_back : old.length - back = front := by omega
  have hnew_back : new.length - back = front := by omega
  have hdrop := h.shares_back.drop_eq
  rw [hold_back, hnew_back] at hdrop
  refine hne ?_
  rw [← List.take_append_drop front old, ← List.take_append_drop front new,
    h.shares_front.take_eq, hdrop]

theorem some_of_compare {old new : List Char} {limits : InlineLimits} {spans : ChangedSpans}
    (h : compare old new limits = .ok spans) :
    ¬ (spans.removed.isEmpty = true ∧ spans.added.isEmpty = true) := by
  have hends := longestEnds old new
  obtain ⟨rfl, hne, _⟩ := (compare_eq_ok_iff hends limits).mp h
  exact hends.some_between hne

/-!
# Changed spans
-/

def swap (spans : ChangedSpans) : ChangedSpans :=
  ⟨spans.added, spans.removed⟩

theorem find?_eq_some_iff {removed added : String} {limits : InlineLimits}
    {spans : ChangedSpans} :
    find? removed added limits = some spans <->
      compare removed.toList added.toList limits = .ok spans := by
  unfold find?
  cases compare removed.toList added.toList limits with
  | error verdict => exact ⟨nofun, nofun⟩
  | ok found =>
      constructor
      · rintro ⟨⟩
        rfl
      · rintro ⟨⟩
        rfl

theorem compare_swap {old new : List Char} {limits : InlineLimits} {spans : ChangedSpans}
    (h : compare old new limits = .ok spans) : compare new old limits = .ok spans.swap := by
  have hends := longestEnds old new
  obtain ⟨rfl, hne, hsome, hworth⟩ := (compare_eq_ok_iff hends limits).mp h
  refine (compare_eq_ok_iff hends.swap limits).mpr ⟨rfl, hne.symm, hsome, ?_⟩
  unfold longest at hworth ⊢
  rw [Nat.max_comm new.length, Nat.max_comm (swap _).removed.length]
  exact hworth

theorem find?_swap (removed added : String) (limits : InlineLimits) :
    find? added removed limits = (find? removed added limits).map swap := by
  refine Option.ext fun spans => ?_
  rw [Option.map_eq_some_iff, find?_eq_some_iff]
  constructor
  · intro hspans
    exact ⟨spans.swap, find?_eq_some_iff.mpr (compare_swap hspans), rfl⟩
  · rintro ⟨found, hfound, rfl⟩
    exact compare_swap (find?_eq_some_iff.mp hfound)

/-- The changed spans of two lines lie between their longest common prefix and the longest common
suffix that it leaves room for, and no two common ends that do not overlap leave less.  Lines
have changed spans exactly if they differ, share an end, and the change is worth marking. -/
theorem find?_exact (removed added : String) (limits : InlineLimits) :
    exists front back : Nat, LongestEnds removed.toList added.toList front back ∧
      (forall size rest : Nat, SharesFront removed.toList added.toList size ->
        SharesBack removed.toList added.toList rest ->
        size + rest ≤ min removed.toList.length added.toList.length ->
        size + rest ≤ front + back) ∧
      ((find? removed added limits).isSome = true <->
        removed ≠ added ∧ 0 < front + back ∧
          WorthMarking limits (between removed.toList added.toList front back).longest
            (max removed.toList.length added.toList.length)) ∧
      (forall spans : ChangedSpans, find? removed added limits = some spans ->
        spans = between removed.toList added.toList front back ∧
          spans.removed.cutOut removed.toList = spans.added.cutOut added.toList ∧
          ¬ (spans.removed.isEmpty = true ∧ spans.added.isEmpty = true)) ∧
      find? added removed limits = (find? removed added limits).map swap := by
  have hends := longestEnds removed.toList added.toList
  have hne : removed.toList ≠ added.toList <-> removed ≠ added := not_congr String.toList_inj
  refine ⟨_, _, hends, fun _ _ => hends.add_le, ?_, ?_, find?_swap removed added limits⟩
  · rw [Option.isSome_iff_exists]
    constructor
    · rintro ⟨spans, hspans⟩
      obtain ⟨rfl, hdiffer, hsome, hworth⟩ :=
        (compare_eq_ok_iff hends limits).mp (find?_eq_some_iff.mp hspans)
      exact ⟨hne.mp hdiffer, hsome, hworth⟩
    · rintro ⟨hdiffer, hsome, hworth⟩
      exact ⟨_, find?_eq_some_iff.mpr ((compare_eq_ok_iff hends limits).mpr
        ⟨rfl, hne.mpr hdiffer, hsome, hworth⟩)⟩
  · intro spans hspans
    have hcompare := find?_eq_some_iff.mp hspans
    exact ⟨((compare_eq_ok_iff hends limits).mp hcompare).left,
      (around_of_compare hcompare).cutOut, some_of_compare hcompare⟩

/-- The longest prefix leaves no room for a suffix here, though a shorter one would. -/
theorem find?_exact_repeated :
    SharesFront "aba".toList "ababa".toList 1 ∧ SharesBack "aba".toList "ababa".toList 2 ∧
      find? "aba" "ababa" .standard = some ⟨⟨3, 3⟩, ⟨3, 5⟩⟩ ∧
      exists front back : Nat, 1 + 2 ≤ front + back ∧
        between "aba".toList "ababa".toList front back = ⟨⟨3, 3⟩, ⟨3, 5⟩⟩ ∧
        find? "ababa" "aba" .standard = some ⟨⟨3, 5⟩, ⟨3, 3⟩⟩ := by
  have hfind : find? "aba" "ababa" .standard = some ⟨⟨3, 3⟩, ⟨3, 5⟩⟩ := by decide +kernel
  have hfront : SharesFront "aba".toList "ababa".toList 1 := sharesFront_iff.mpr (by decide +kernel)
  have hback : SharesBack "aba".toList "ababa".toList 2 := sharesBack_iff.mpr (by decide +kernel)
  obtain ⟨front, back, _, hmost, _, hspans, hswap⟩ := find?_exact "aba" "ababa" .standard
  rw [hfind] at hswap
  exact ⟨hfront, hback, hfind, front, back, hmost 1 2 hfront hback (by decide +kernel),
    (hspans _ hfind).left.symm, hswap⟩

end ChangedSpans
end LessonPress

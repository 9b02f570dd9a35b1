import LessonPress.Diff.Highlight
import LessonPress.Proofs.Text.Lines

/-!
# Partners

## Which lines of a block are compared

A removed line and an added line are partners if they have the same place in a run of removed
lines and the run of added lines right behind it.  Highlighting changes each pair of partners
as a pair and leaves every other line as it is.
-/

namespace LessonPress

open Highlight (isRemoved isAdded)

def kindAt (lines : List DiffLine) (index : Nat) : Option ChangeKind :=
  (lines[index]?).map DiffLine.kind

/-- The removed lines from `first` on are a run that ends at `border`, and the added lines from
there on reach at least to the one in the place of the removed line. -/
structure Paired (lines : List DiffLine) (first border removed added : Nat) : Prop where
  first_le : first ≤ removed
  lt_border : removed < border
  place : added = border + (removed - first)
  isStart : forall index, index + 1 = first -> kindAt lines index ≠ some .remove
  allRemoved : forall index, first ≤ index -> index < border -> kindAt lines index = some .remove
  allAdded : forall index, border ≤ index -> index ≤ added -> kindAt lines index = some .add

def Partners (lines : List DiffLine) (removed added : Nat) : Prop :=
  exists first border, Paired lines first border removed added

variable {lines : List DiffLine} {removed added : Nat}

theorem Partners.removed_kind (h : Partners lines removed added) :
    kindAt lines removed = some .remove := by
  obtain ⟨first, border, hpaired⟩ := h
  exact hpaired.allRemoved removed hpaired.first_le hpaired.lt_border

theorem Partners.added_kind (h : Partners lines removed added) :
    kindAt lines added = some .add := by
  obtain ⟨first, border, hpaired⟩ := h
  exact hpaired.allAdded added (by rw [hpaired.place]; exact Nat.le_add_right _ _) (Nat.le_refl _)

/-!
# Blocks by their runs

A block is empty, starts with a line that was not removed, or starts with a run of removed
lines and the run of added lines behind it.
-/

theorem kindAt_append_left {front : List DiffLine} {index : Nat} (h : index < front.length)
    (back : List DiffLine) : kindAt (front ++ back) index = kindAt front index := by
  unfold kindAt
  rw [List.getElem?_append_left h]

theorem kindAt_append_right {front : List DiffLine} {index : Nat} (h : front.length ≤ index)
    (back : List DiffLine) :
    kindAt (front ++ back) index = kindAt back (index - front.length) := by
  unfold kindAt
  rw [List.getElem?_append_right h]

theorem kindAt_of_all {kind : ChangeKind} (h : forall line, line ∈ lines -> line.kind = kind)
    {index : Nat} (hindex : index < lines.length) : kindAt lines index = some kind := by
  unfold kindAt
  rw [List.getElem?_eq_getElem hindex, Option.map_some, h _ (List.getElem_mem hindex)]

theorem kindAt_zero (lines : List DiffLine) : kindAt lines 0 = lines.head?.map DiffLine.kind := by
  cases lines <;> rfl

structure StartsWith (olds news rest : List DiffLine) : Prop where
  some_removed : olds ≠ []
  removed : forall line, line ∈ olds -> line.kind = .remove
  added : forall line, line ∈ news -> line.kind = .add
  not_added : kindAt rest 0 ≠ some .add
  not_removed : news = [] -> kindAt rest 0 ≠ some .remove

theorem kindAt_dropWhile (keep : DiffLine -> Bool) (lines : List DiffLine) {kind : ChangeKind}
    (h : forall line, line.kind = kind -> keep line = true) :
    kindAt (lines.dropWhile keep) 0 ≠ some kind := by
  intro hkind
  cases hrest : lines.dropWhile keep with
  | nil =>
      rw [hrest] at hkind
      cases hkind
  | cons line rest =>
      rw [hrest] at hkind
      have hstop : ¬ keep line = true := by
        have hhead := List.head_dropWhile_not keep (l := lines) (by rw [hrest]; nofun)
        simpa [hrest] using hhead
      exact hstop (h line (Option.some.inj hkind))

theorem startsWith_runs {line : DiffLine} (rest : List DiffLine) (h : line.kind = .remove) :
    StartsWith (line :: rest.takeWhile isRemoved) ((rest.dropWhile isRemoved).takeWhile isAdded)
      ((rest.dropWhile isRemoved).dropWhile isAdded) where
  some_removed := nofun
  removed := by
    intro other hother
    rcases List.mem_cons.mp hother with hline | hmem
    · rw [hline, h]
    · exact of_decide_eq_true (List.all_eq_true.mp List.all_takeWhile other hmem)
  added := fun other hother =>
    of_decide_eq_true (List.all_eq_true.mp List.all_takeWhile other hother)
  not_added := kindAt_dropWhile isAdded _ fun _ hkind => decide_eq_true hkind
  not_removed := by
    intro hnone
    have hall : (rest.dropWhile isRemoved).dropWhile isAdded = rest.dropWhile isRemoved := by
      have hsplit := List.takeWhile_append_dropWhile (p := isAdded) (l := rest.dropWhile isRemoved)
      rw [hnone, List.nil_append] at hsplit
      exact hsplit
    rw [hall]
    exact kindAt_dropWhile isRemoved _ fun _ hkind => decide_eq_true hkind

theorem block_induction {motive : List DiffLine -> Prop} (nil : motive [])
    (other : forall line rest, line.kind ≠ .remove -> motive rest -> motive (line :: rest))
    (run : forall olds news rest, StartsWith olds news rest -> motive rest ->
      motive (olds ++ news ++ rest)) (lines : List DiffLine) : motive lines := by
  induction lines using Highlight.lines.induct .standard with
  | case1 => exact nil
  | case2 line rest hremoved olds following news _ _ _ _ _ _ _ ih =>
      have hrun := run _ _ _ (startsWith_runs rest (of_decide_eq_true hremoved)) ih
      rw [List.append_assoc, List.takeWhile_append_dropWhile, List.cons_append,
        List.takeWhile_append_dropWhile] at hrun
      exact hrun
  | case3 line rest hother _ _ _ ih =>
      exact other line rest (fun hkind => hother (decide_eq_true hkind)) ih

/-!
# Partners behind a front

Pairs of the back of a block are pairs of the block if the front does not end inside of a run
of removed lines.
-/

section Behind

variable {back : List DiffLine} {first border : Nat}

theorem Paired.behind (front : List DiffLine)
    (h : Paired (front ++ back) first border removed added)
    (hfirst : front.length ≤ first) :
    Paired back (first - front.length) (border - front.length) (removed - front.length)
      (added - front.length) := by
  obtain ⟨hle, hlt, hplace, hstart, hremoved, hadded⟩ := h
  have hkind : forall index, kindAt back index = kindAt (front ++ back) (index + front.length) := by
    intro index
    rw [kindAt_append_right (Nat.le_add_left _ _), Nat.add_sub_cancel]
  refine ⟨by omega, by omega, by omega, ?_, ?_, ?_⟩
  · intro index hindex
    rw [hkind]
    exact hstart _ (by omega)
  · intro index hge hstop
    rw [hkind]
    exact hremoved _ (by omega) (by omega)
  · intro index hge hstop
    rw [hkind]
    exact hadded _ (by omega) (by omega)

theorem Paired.ahead (front : List DiffLine) (h : Paired back first border removed added)
    (hfront : kindAt back 0 = some .remove ->
      forall index, index + 1 = front.length -> kindAt front index ≠ some .remove) :
    Paired (front ++ back) (front.length + first) (front.length + border)
      (front.length + removed) (front.length + added) := by
  obtain ⟨hle, hlt, hplace, hstart, hremoved, hadded⟩ := h
  have hkind : forall index, front.length ≤ index ->
      kindAt (front ++ back) index = kindAt back (index - front.length) :=
    fun index hindex => kindAt_append_right hindex back
  refine ⟨by omega, by omega, by omega, ?_, ?_, ?_⟩
  · intro index hindex
    by_cases hfirst : first = 0
    · subst hfirst
      rw [kindAt_append_left (by omega)]
      exact hfront (hremoved 0 (Nat.le_refl _) (by omega)) index (by omega)
    · rw [hkind index (by omega)]
      exact hstart _ (by omega)
  · intro index hge hstop
    rw [hkind index (by omega)]
    exact hremoved _ (by omega) (by omega)
  · intro index hge hstop
    rw [hkind index (by omega)]
    exact hadded _ (by omega) (by omega)

end Behind

theorem partners_other_iff {line : DiffLine} (rest : List DiffLine) (h : line.kind ≠ .remove) :
    Partners (line :: rest) removed added <->
      exists old new, Partners rest old new ∧ removed = old + 1 ∧ added = new + 1 := by
  have hhead : kindAt (line :: rest) 0 ≠ some .remove := fun hkind => h (Option.some.inj hkind)
  constructor
  · rintro ⟨first, border, hpaired⟩
    have hfirst : 1 ≤ first := by
      cases first with
      | zero => exact absurd (hpaired.allRemoved 0 (Nat.le_refl _)
          (Nat.lt_of_le_of_lt (Nat.zero_le _) hpaired.lt_border)) hhead
      | succ before => exact Nat.succ_le_succ (Nat.zero_le _)
    have hbehind := Paired.behind [line] hpaired hfirst
    have hle := hpaired.first_le
    have hlt := hpaired.lt_border
    have hplace := hpaired.place
    exact ⟨removed - 1, added - 1, ⟨first - 1, border - 1, hbehind⟩, by omega, by omega⟩
  · rintro ⟨old, new, ⟨first, border, hpaired⟩, hremoved, hadded⟩
    have hahead := Paired.ahead [line] hpaired (by
      intro _ index hindex
      have hzero : index = 0 := Nat.succ.inj hindex
      rw [hzero]
      exact hhead)
    rw [hremoved, hadded, Nat.add_comm old, Nat.add_comm new]
    exact ⟨1 + first, 1 + border, hahead⟩

/-!
# Partners in a block that starts with runs
-/

namespace StartsWith

variable {olds news rest : List DiffLine}

theorem kindAt_removed (h : StartsWith olds news rest) {index : Nat}
    (hindex : index < olds.length) : kindAt (olds ++ news ++ rest) index = some .remove := by
  rw [List.append_assoc, kindAt_append_left hindex, kindAt_of_all h.removed hindex]

theorem kindAt_added (h : StartsWith olds news rest) {index : Nat}
    (hge : olds.length ≤ index) (hindex : index < olds.length + news.length) :
    kindAt (olds ++ news ++ rest) index = some .add := by
  rw [List.append_assoc, kindAt_append_right hge, kindAt_append_left (by omega),
    kindAt_of_all h.added (by omega)]

theorem kindAt_rest (olds news rest : List DiffLine) :
    kindAt (olds ++ news ++ rest) (olds.length + news.length) = kindAt rest 0 := by
  rw [kindAt_append_right (Nat.le_of_eq List.length_append), List.length_append, Nat.sub_self]

theorem kindAt_border (h : StartsWith olds news rest) :
    kindAt (olds ++ news ++ rest) olds.length ≠ some .remove := by
  by_cases hnews : news = []
  · have hrest := kindAt_rest olds news rest
    rw [hnews, List.length_nil, Nat.add_zero] at hrest
    rw [hnews, hrest]
    exact h.not_removed hnews
  · have hpos := List.length_pos_iff.mpr hnews
    rw [h.kindAt_added (Nat.le_refl _) (by omega)]
    nofun

theorem exists_found (h : StartsWith olds news rest) :
    exists line more, olds = line :: more ∧ line.kind = .remove ∧
      (more ++ (news ++ rest)).takeWhile isRemoved = more ∧
      (more ++ (news ++ rest)).dropWhile isRemoved = news ++ rest ∧
      (news ++ rest).takeWhile isAdded = news ∧ (news ++ rest).dropWhile isAdded = rest := by
  obtain ⟨line, more, rfl⟩ := List.exists_cons_of_ne_nil h.some_removed
  have hmore : forall other, other ∈ more -> isRemoved other = true := fun other hother =>
    decide_eq_true (h.removed other (List.mem_cons_of_mem _ hother))
  have hborder : forall other, (news ++ rest).head? = some other -> isRemoved other = false := by
    intro other hother
    apply decide_eq_false
    intro hkind
    have hzero : kindAt (news ++ rest) 0 = some .remove := by
      rw [kindAt_zero, hother, Option.map_some, hkind]
    refine h.kindAt_border ?_
    rw [List.append_assoc, kindAt_append_right (Nat.le_refl _), Nat.sub_self]
    exact hzero
  have hnews : forall other, other ∈ news -> isAdded other = true := fun other hother =>
    decide_eq_true (h.added other hother)
  have hrest : forall other, rest.head? = some other -> isAdded other = false := by
    intro other hother
    apply decide_eq_false
    intro hkind
    refine h.not_added ?_
    rw [kindAt_zero, hother, Option.map_some, hkind]
  obtain ⟨htake, hdrop⟩ := Text.takeWhile_append hmore (news ++ rest) hborder
  obtain ⟨htakeNews, hdropNews⟩ := Text.takeWhile_append hnews rest hrest
  exact ⟨line, more, rfl, h.removed line List.mem_cons_self, htake, hdrop, htakeNews, hdropNews⟩

theorem paired_first {first border : Nat} (h : StartsWith olds news rest)
    (hpaired : Paired (olds ++ news ++ rest) first border removed added)
    (hfirst : first < olds.length) :
    removed < olds.length ∧ removed < news.length ∧ added = olds.length + removed := by
  obtain ⟨hle, hlt, hplace, hstart, hremoved, hadded⟩ := hpaired
  have hzero : first = 0 := by
    cases first with
    | zero => rfl
    | succ before => exact absurd (h.kindAt_removed (by omega)) (hstart before rfl)
  have hle_border : olds.length ≤ border := by
    refine Nat.le_of_not_lt fun hshort => ?_
    have hkind := hadded border (Nat.le_refl _) (by omega)
    rw [h.kindAt_removed hshort] at hkind
    cases hkind
  have hborder_le : border ≤ olds.length :=
    Nat.le_of_not_lt fun hlong => h.kindAt_border (hremoved olds.length (by omega) hlong)
  have hadded_lt : added < olds.length + news.length := by
    refine Nat.lt_of_not_le fun hlong => h.not_added ?_
    rw [← kindAt_rest olds news rest]
    exact hadded _ (by omega) hlong
  omega

theorem paired_runs (h : StartsWith olds news rest) {place : Nat} (hold : place < olds.length)
    (hnew : place < news.length) :
    Paired (olds ++ news ++ rest) 0 olds.length place (olds.length + place) where
  first_le := Nat.zero_le _
  lt_border := hold
  place := by rw [Nat.sub_zero]
  isStart := nofun
  allRemoved := fun _ _ hindex => h.kindAt_removed hindex
  allAdded := fun index hge hle => h.kindAt_added hge (by omega)

/-- A pair of the block is a pair of its first two runs or a pair of the rest. -/
theorem partners_iff (h : StartsWith olds news rest) :
    Partners (olds ++ news ++ rest) removed added <->
      (removed < olds.length ∧ removed < news.length ∧ added = olds.length + removed) ∨
        exists old new, Partners rest old new ∧ removed = olds.length + news.length + old ∧
          added = olds.length + news.length + new := by
  have hlength : (olds ++ news).length = olds.length + news.length := List.length_append
  constructor
  · rintro ⟨first, border, hpaired⟩
    by_cases hfirst : first < olds.length
    · exact Or.inl (h.paired_first hpaired hfirst)
    · have hle := hpaired.first_le
      have hlt := hpaired.lt_border
      have hplace := hpaired.place
      have hbehind : olds.length + news.length ≤ first := by
        refine Nat.le_of_not_lt fun hshort => ?_
        have hkind := hpaired.allRemoved first (Nat.le_refl _) (by omega)
        rw [h.kindAt_added (by omega) hshort] at hkind
        cases hkind
      exact Or.inr ⟨_, _, ⟨_, _, hpaired.behind _ (by omega)⟩, by omega, by omega⟩
  · rintro (⟨hold, hnew, hadded⟩ | ⟨old, new, ⟨first, border, hpaired⟩, hremoved, hadded⟩)
    · rw [hadded]
      exact ⟨0, olds.length, h.paired_runs hold hnew⟩
    · rw [hremoved, hadded, ← hlength]
      refine ⟨_, _, hpaired.ahead _ fun hrest index hindex => ?_⟩
      -- a run that starts the rest stands behind an added line
      have hnews : news ≠ [] := fun hnone => h.not_removed hnone hrest
      have hpos := List.length_pos_iff.mpr hnews
      have hkind : kindAt (olds ++ news ++ rest) index = some .add :=
        h.kindAt_added (by omega) (by omega)
      rw [kindAt_append_left (by omega)] at hkind
      rw [hkind]
      nofun

end StartsWith
end LessonPress

import LessonPress.Proofs.Diff.Highlighting

/-!
# Pairing

## Which lines a pass compares, pair by pair

A pass is a walk over pairs of places: the lines at two places are compared and what comes of
them is put back.  The places are those of the removed and the added line with the same number
in a maximal run of removed lines and the maximal run of added lines that starts right behind
it, as far as the shorter one of the two runs goes.
-/

namespace LessonPress

open Highlight (isRemoved isAdded)

/-!
# Maximal runs
-/

section Runs

variable {block : List DiffLine}

/-- The lines from `first` up to `stop` are of a kind, and the lines around them are not. -/
structure MaximalRun (block : List DiffLine) (kind : ChangeKind) (first stop : Nat) : Prop where
  lt : first < stop
  all : forall index, first ≤ index -> index < stop -> kindAt block index = some kind
  isStart : forall index, index + 1 = first -> kindAt block index ≠ some kind
  isStop : kindAt block stop ≠ some kind

theorem MaximalRun.first_le {kind : ChangeKind} {first stop first' stop' index : Nat}
    (h : MaximalRun block kind first stop) (h' : MaximalRun block kind first' stop')
    (hfirst : first ≤ index) (hstop' : index < stop') : first ≤ first' := by
  refine Nat.le_of_not_lt fun hlt => h.isStart (first - 1) (by omega) ?_
  exact h'.all (first - 1) (by omega) (by omega)

theorem MaximalRun.unique {kind : ChangeKind} {first stop first' stop' : Nat}
    (h : MaximalRun block kind first stop) (h' : MaximalRun block kind first' stop') (index : Nat)
    (hfirst : first ≤ index) (hstop : index < stop) (hfirst' : first' ≤ index)
    (hstop' : index < stop') : first = first' ∧ stop = stop' := by
  have hsame : first = first' :=
    Nat.le_antisymm (h.first_le h' hfirst hstop') (h'.first_le h hfirst' hstop)
  refine ⟨hsame, Nat.le_antisymm (Nat.le_of_not_lt fun hlt => ?_) (Nat.le_of_not_lt fun hlt => ?_)⟩
  · exact h'.isStop (h.all stop' (by omega) hlt)
  · exact h.isStop (h'.all stop (by omega) hlt)

theorem exists_stop (block : List DiffLine) (kind : ChangeKind) (first : Nat) :
    exists stop, first ≤ stop ∧
      (forall index, first ≤ index -> index < stop -> kindAt block index = some kind) ∧
      kindAt block stop ≠ some kind := by
  generalize hleft : block.length - first = left
  induction left generalizing first with
  | zero =>
      refine ⟨first, Nat.le_refl _, by omega, ?_⟩
      unfold kindAt
      rw [List.getElem?_eq_none (by omega)]
      nofun
  | succ left ih =>
      by_cases hkind : kindAt block first = some kind
      · obtain ⟨stop, hle, hall, hstop⟩ := ih (first + 1) (by omega)
        refine ⟨stop, by omega, fun index hge hlt => ?_, hstop⟩
        by_cases hindex : index = first
        · rw [hindex, hkind]
        · exact hall index (by omega) hlt
      · exact ⟨first, Nat.le_refl _, by omega, hkind⟩

/-- Two lines have the same number in a run of removed lines and the run of added lines that
starts right behind it. -/
def InRuns (block : List DiffLine) (removed added : Nat) : Prop :=
  exists first border stop number, MaximalRun block .remove first border ∧
    MaximalRun block .add border stop ∧ number < min (border - first) (stop - border) ∧
    removed = first + number ∧ added = border + number

theorem partners_iff_inRuns {removed added : Nat} :
    Partners block removed added <-> InRuns block removed added := by
  constructor
  · rintro ⟨first, border, hle, hlt, hplace, hstart, hremoved, hadded⟩
    have hborder := hadded border (Nat.le_refl _) (by omega)
    obtain ⟨stop, _, hall, hstop⟩ := exists_stop block .add border
    have hreach : added < stop := by
      refine Nat.lt_of_not_le fun hshort => hstop (hadded stop ?_ hshort)
      assumption
    refine ⟨first, border, stop, removed - first, ⟨by omega, hremoved, hstart, ?_⟩,
      ⟨by omega, hall, fun index hindex => ?_, hstop⟩, by omega, by omega, by omega⟩
    · rw [hborder]
      nofun
    · rw [hremoved index (by omega) (by omega)]
      nofun
  · rintro ⟨first, border, stop, number, hold, hnew, hnumber, rfl, rfl⟩
    exact ⟨first, border, by omega, by omega, by omega, hold.isStart, hold.all,
      fun index hge hle => hnew.all index hge (by omega)⟩

theorem InRuns.added_unique {removed added other : Nat} (h : InRuns block removed added)
    (h' : InRuns block removed other) : added = other := by
  obtain ⟨first, border, stop, number, hold, _, hnumber, rfl, rfl⟩ := h
  obtain ⟨first', border', stop', number', hold', _, hnumber', hplace, rfl⟩ := h'
  obtain ⟨rfl, rfl⟩ := hold.unique hold' (first + number) (by omega) (by omega) (by omega)
    (by omega)
  omega

theorem InRuns.removed_unique {removed other added : Nat} (h : InRuns block removed added)
    (h' : InRuns block other added) : removed = other := by
  obtain ⟨first, border, stop, number, hold, hnew, hnumber, rfl, rfl⟩ := h
  obtain ⟨first', border', stop', number', hold', hnew', hnumber', rfl, hplace⟩ := h'
  obtain ⟨rfl, rfl⟩ := hnew.unique hnew' (border + number) (by omega) (by omega) (by omega)
    (by omega)
  have hlt := hold.lt
  have hlt' := hold'.lt
  obtain ⟨rfl, _⟩ := hold.unique hold' (border - 1) (by omega) (by omega) (by omega)
    (by omega)
  omega

/-- A line is in one pair at most. -/
theorem InRuns.eq_of_shared {removed added removed' added' : Nat}
    (h : InRuns block removed added) (h' : InRuns block removed' added')
    (hshared : removed = removed' ∨ removed = added' ∨ added = removed' ∨ added = added') :
    removed = removed' ∧ added = added' := by
  have hkind := (partners_iff_inRuns.mpr h).removed_kind
  have hkind' := (partners_iff_inRuns.mpr h').removed_kind
  have hadded := (partners_iff_inRuns.mpr h).added_kind
  have hadded' := (partners_iff_inRuns.mpr h').added_kind
  rcases hshared with rfl | rfl | rfl | rfl
  · exact ⟨rfl, h.added_unique h'⟩
  · rw [hkind] at hadded'
    cases hadded'
  · rw [hadded] at hkind'
    cases hkind'
  · exact ⟨h.removed_unique h', rfl⟩

end Runs

/-!
# Counts
-/

namespace HighlightStats

theorem blocks_add (a b : HighlightStats) : (a.add b).blocks = a.blocks + b.blocks :=
  rfl

theorem pairs_add (a b : HighlightStats) : (a.add b).pairs = a.pairs + b.pairs :=
  rfl

theorem zero_add (stats : HighlightStats) : zero.add stats = stats := by
  simp [add, zero]

theorem add_zero (stats : HighlightStats) : stats.add zero = stats := by
  simp [add, zero]

theorem add_assoc (a b c : HighlightStats) : (a.add b).add c = a.add (b.add c) := by
  simp [add, Nat.add_assoc]

/-- Every pair is highlighted, suppressed or skipped. -/
def Balanced (stats : HighlightStats) : Prop :=
  stats.pairs = stats.highlighted + stats.suppressed + stats.skipped

theorem Balanced.add {a b : HighlightStats} (ha : a.Balanced) (hb : b.Balanced) :
    (a.add b).Balanced := by
  unfold Balanced at ha hb ⊢
  unfold HighlightStats.add
  dsimp only
  omega

end HighlightStats

namespace Highlight

variable {limits : InlineLimits}

/-!
# A pass as a walk over pairs
-/

def examine (limits : InlineLimits) (state : List DiffLine × HighlightStats)
    (places : Nat × Nat) : List DiffLine × HighlightStats :=
  match state.1[places.1]?, state.1[places.2]? with
  | some removed, some added =>
      let ((removed, added), own) := pair limits removed added
      ((state.1.set places.1 removed).set places.2 added, state.2.add own)
  | _, _ => state

/-- The pairs of places that are examined in lines, of which the first is at the given place of
its block. -/
def examined : Nat -> List DiffLine -> List (Nat × Nat)
  | _, [] => []
  | place, line :: rest =>
      if isRemoved line then
        let olds := line :: rest.takeWhile isRemoved
        let following := rest.dropWhile isRemoved
        let news := following.takeWhile isAdded
        let border := place + olds.length
        (List.range' place olds.length).zip (List.range' border news.length) ++
          examined (border + news.length) (following.dropWhile isAdded)
      else
        examined (place + 1) rest
termination_by _ block => block.length
decreasing_by
  · have hremoved := (List.dropWhile_sublist isRemoved (l := rest)).length_le
    have hadded := (List.dropWhile_sublist isAdded (l := rest.dropWhile isRemoved)).length_le
    simp only [List.length_cons]
    omega
  · exact Nat.lt_succ_self _

theorem examined_other (place : Nat) {line : DiffLine} (rest : List DiffLine)
    (h : line.kind ≠ .remove) : examined place (line :: rest) = examined (place + 1) rest := by
  rw [examined, if_neg (by simpa [isRemoved] using h)]

theorem examined_run (place : Nat) {olds news rest : List DiffLine}
    (h : StartsWith olds news rest) :
    examined place (olds ++ news ++ rest) =
      (List.range' place olds.length).zip (List.range' (place + olds.length) news.length) ++
        examined (place + olds.length + news.length) rest := by
  obtain ⟨line, more, rfl, hkind, htake, hdrop, htakeNews, hdropNews⟩ := h.exists_found
  rw [List.append_assoc, List.cons_append, examined, if_pos (by simpa [isRemoved] using hkind)]
  dsimp only
  rw [htake, hdrop, htakeNews, hdropNews]

theorem examine_at (limits : InlineLimits) (front between back : List DiffLine)
    (removed added : DiffLine) (stats : HighlightStats) :
    examine limits (front ++ removed :: (between ++ added :: back), stats)
        (front.length, front.length + 1 + between.length) =
      (front ++ (pair limits removed added).1.1 ::
          (between ++ (pair limits removed added).1.2 :: back),
        stats.add (pair limits removed added).2) := by
  have hplace : front.length + 1 + between.length =
      (front ++ removed :: between).length := by
    rw [List.length_append, List.length_cons]
    omega
  have hold : (front ++ removed :: (between ++ added :: back))[front.length]? = some removed := by
    rw [List.getElem?_append_right (Nat.le_refl _), Nat.sub_self]
    rfl
  have hnew : (front ++ removed :: (between ++ added :: back))[front.length + 1 + between.length]? =
      some added := by
    rw [hplace, ← List.cons_append, ← List.append_assoc,
      List.getElem?_append_right (Nat.le_refl _), Nat.sub_self]
    rfl
  unfold examine
  dsimp only
  rw [hold, hnew]
  dsimp only
  rw [List.set_append_right _ _ (Nat.le_refl _), Nat.sub_self, List.set_cons_zero,
    List.set_append_right _ _ (by omega)]
  have hset : front.length + 1 + between.length - front.length = between.length + 1 := by omega
  rw [hset, List.set_cons_succ, List.set_append_right _ _ (Nat.le_refl _), Nat.sub_self,
    List.set_cons_zero]

theorem foldl_runs (limits : InlineLimits) (front olds between news back : List DiffLine)
    (stats : HighlightStats) :
    ((List.range' front.length olds.length).zip
        (List.range' (front.length + olds.length + between.length) news.length)).foldl
          (examine limits) (front ++ olds ++ between ++ news ++ back, stats) =
      (front ++ (runs limits olds news).1.1 ++ between ++ (runs limits olds news).1.2 ++ back,
        stats.add (runs limits olds news).2) := by
  induction olds generalizing front between news stats with
  | nil =>
      rw [runs_nil_left, stats.add_zero]
      rfl
  | cons removed olds ih =>
      cases news with
      | nil =>
          rw [runs_nil_right, stats.add_zero, List.length_nil, List.range'_zero,
            List.zip_nil_right]
          rfl
      | cons added news =>
          -- a pair that was examined joins what stands around the rest of the runs
          have hnext := ih (front ++ [(pair limits removed added).1.1])
            (between ++ [(pair limits removed added).1.2]) news
            (stats.add (pair limits removed added).2)
          have hlines : front ++ removed :: olds ++ between ++ added :: news ++ back =
              front ++ removed :: (olds ++ between ++ added :: (news ++ back)) := by
            simp
          have hplace : front.length + (olds.length + 1) + between.length =
              front.length + 1 + (olds ++ between).length := by
            rw [List.length_append]
            omega
          have hborder : front.length + 1 + (olds ++ between).length + 1 =
              front.length + 1 + olds.length + (between.length + 1) := by
            rw [List.length_append]
            omega
          simp only [List.length_append, List.length_singleton, List.append_assoc,
            List.singleton_append] at hnext
          rw [List.length_cons, List.length_cons, List.range'_succ, List.range'_succ,
            List.zip_cons_cons, List.foldl_cons, hlines, hplace, examine_at, hborder,
            runs_eq_cons, ← stats.add_assoc]
          simp only [List.append_assoc, List.cons_append]
          exact hnext

/-- A pass over the lines of a block is a walk over the pairs that are examined. -/
theorem foldl_examined (limits : InlineLimits) (front block : List DiffLine)
    (stats : HighlightStats) :
    (examined front.length block).foldl (examine limits) (front ++ block, stats) =
      (front ++ (lines limits block).1, stats.add (lines limits block).2) := by
  induction block using block_induction generalizing front stats with
  | nil => rw [lines, examined, List.foldl_nil, stats.add_zero]
  | other line rest hkind ih =>
      have hrest := ih (front ++ [line]) stats
      rw [List.length_append, List.length_singleton, List.append_assoc, List.append_assoc] at hrest
      rw [examined_other _ rest hkind, lines_eq_other rest hkind]
      exact hrest
  | run olds news rest hstart ih =>
      obtain ⟨holds, hnews⟩ := length_runs limits olds news
      have hruns := foldl_runs limits front olds [] news rest stats
      have hrest := ih (front ++ (runs limits olds news).1.1 ++ (runs limits olds news).1.2)
        (stats.add (runs limits olds news).2)
      rw [List.length_append, List.length_append, holds, hnews, stats.add_assoc] at hrest
      rw [List.length_nil, Nat.add_zero, List.append_nil, List.append_nil] at hruns
      rw [examined_run _ hstart, List.foldl_append, ← List.append_assoc, ← List.append_assoc, hruns,
        hrest, lines_eq_run hstart]
      simp only [List.append_assoc]

/-!
# The pairs that are examined
-/

theorem places_behind (first second removed added : Nat) :
    (first + 1 + removed, second + 1 + added) = (first + (removed + 1), second + (added + 1)) := by
  rw [Nat.add_assoc, Nat.add_assoc, Nat.add_comm 1, Nat.add_comm 1]

theorem mem_zip_range'_iff {first border olds news : Nat} {places : Nat × Nat} :
    places ∈ (List.range' first olds).zip (List.range' border news) <->
      exists number, number < olds ∧ number < news ∧
        places = (first + number, border + number) := by
  induction olds generalizing first border news with
  | zero => simp
  | succ olds ih =>
      cases news with
      | zero => simp
      | succ news =>
          rw [List.range'_succ, List.range'_succ, List.zip_cons_cons, List.mem_cons, ih]
          constructor
          · rintro (rfl | ⟨number, hold, hnew, rfl⟩)
            · exact ⟨0, by omega, by omega, rfl⟩
            · exact ⟨number + 1, by omega, by omega, places_behind first border number number⟩
          · rintro ⟨number, hold, hnew, rfl⟩
            cases number with
            | zero => exact Or.inl rfl
            | succ number =>
                exact Or.inr ⟨number, by omega, by omega,
                  (places_behind first border number number).symm⟩

theorem mem_examined_iff {block : List DiffLine} {place : Nat} {places : Nat × Nat} :
    places ∈ examined place block <->
      exists removed added, Partners block removed added ∧
        places = (place + removed, place + added) := by
  induction block using block_induction generalizing place with
  | nil =>
      rw [examined]
      refine ⟨nofun, ?_⟩
      rintro ⟨removed, added, hpartners, _⟩
      exact absurd hpartners.removed_kind nofun
  | other line rest hkind ih =>
      rw [examined_other place rest hkind, ih]
      constructor
      · rintro ⟨removed, added, hpartners, rfl⟩
        exact ⟨removed + 1, added + 1, (partners_other_iff rest hkind).mpr
          ⟨removed, added, hpartners, rfl, rfl⟩, places_behind place place removed added⟩
      · rintro ⟨removed, added, hpartners, rfl⟩
        obtain ⟨old, new, hrest, rfl, rfl⟩ := (partners_other_iff rest hkind).mp hpartners
        exact ⟨old, new, hrest, (places_behind place place old new).symm⟩
  | run olds news rest hstart ih =>
      rw [examined_run place hstart, List.mem_append, mem_zip_range'_iff, ih]
      constructor
      · rintro (⟨number, hold, hnew, rfl⟩ | ⟨removed, added, hpartners, rfl⟩)
        · refine ⟨number, olds.length + number,
            hstart.partners_iff.mpr (Or.inl ⟨hold, hnew, rfl⟩), ?_⟩
          rw [Nat.add_assoc]
        · refine ⟨_, _, hstart.partners_iff.mpr (Or.inr ⟨removed, added, hpartners, rfl, rfl⟩), ?_⟩
          simp only [Nat.add_assoc]
      · rintro ⟨removed, added, hpartners, rfl⟩
        rcases hstart.partners_iff.mp hpartners with
          ⟨hold, hnew, rfl⟩ | ⟨old, new, hrest, rfl, rfl⟩
        · refine Or.inl ⟨removed, hold, hnew, ?_⟩
          rw [Nat.add_assoc]
        · refine Or.inr ⟨old, new, hrest, ?_⟩
          simp only [Nat.add_assoc]

theorem pairwise_examined (place : Nat) (block : List DiffLine) :
    (examined place block).Pairwise fun first second => first.1 < second.1 := by
  have hzip : forall olds first border news,
      ((List.range' first olds).zip (List.range' border news)).Pairwise
        fun (one other : Nat × Nat) => one.1 < other.1 := by
    intro olds
    induction olds with
    | zero => exact fun _ _ _ => .nil
    | succ olds ih =>
        intro first border news
        cases news with
        | zero => exact .nil
        | succ news =>
            rw [List.range'_succ, List.range'_succ, List.zip_cons_cons]
            refine .cons (fun places hplaces => ?_) (ih (first + 1) (border + 1) news)
            obtain ⟨number, _, _, rfl⟩ := mem_zip_range'_iff.mp hplaces
            dsimp only
            omega
  induction block using block_induction generalizing place with
  | nil =>
      rw [examined]
      exact .nil
  | other line rest hkind ih =>
      rw [examined_other place rest hkind]
      exact ih (place + 1)
  | run olds news rest hstart ih =>
      rw [examined_run place hstart, List.pairwise_append]
      refine ⟨hzip _ _ _ _, ih _, fun one hone other hother => ?_⟩
      obtain ⟨number, hnumber, _, rfl⟩ := mem_zip_range'_iff.mp hone
      obtain ⟨removed, added, _, rfl⟩ := mem_examined_iff.mp hother
      dsimp only
      omega

theorem nodup_examined (place : Nat) (block : List DiffLine) : (examined place block).Nodup :=
  (pairwise_examined place block).imp fun hlt heq => Nat.ne_of_lt hlt (congrArg Prod.fst heq)

theorem mem_examined_iff_inRuns {block : List DiffLine} {removed added : Nat} :
    (removed, added) ∈ examined 0 block <-> InRuns block removed added := by
  rw [mem_examined_iff, ← partners_iff_inRuns]
  constructor
  · rintro ⟨old, new, hpartners, hplaces⟩
    rw [Nat.zero_add, Nat.zero_add] at hplaces
    obtain ⟨rfl, rfl⟩ := Prod.mk.inj hplaces
    exact hpartners
  · intro hpartners
    exact ⟨removed, added, hpartners, by rw [Nat.zero_add, Nat.zero_add]⟩

/-!
# Counting the pairs
-/

theorem counts_pair (limits : InlineLimits) (removed added : DiffLine) :
    (pair limits removed added).2.pairs = 1 ∧ (pair limits removed added).2.Balanced ∧
      (pair limits removed added).2.blocks = 0 := by
  unfold pair
  split
  · exact ⟨rfl, rfl, rfl⟩
  · split <;> exact ⟨rfl, rfl, rfl⟩

theorem counts_runs (limits : InlineLimits) (olds news : List DiffLine) :
    (runs limits olds news).2.pairs = min olds.length news.length ∧
      (runs limits olds news).2.Balanced ∧ (runs limits olds news).2.blocks = 0 := by
  induction olds generalizing news with
  | nil =>
      rw [runs_nil_left]
      exact ⟨(Nat.zero_min _).symm, rfl, rfl⟩
  | cons removed olds ih =>
      cases news with
      | nil =>
          rw [runs_nil_right]
          exact ⟨(Nat.min_zero _).symm, rfl, rfl⟩
      | cons added news =>
          obtain ⟨hpairs, hbalanced, hblocks⟩ := counts_pair limits removed added
          obtain ⟨hmore, hrest, hnone⟩ := ih news
          rw [runs_eq_cons]
          refine ⟨?_, hbalanced.add hrest, ?_⟩
          · rw [HighlightStats.pairs_add, hpairs, hmore, List.length_cons, List.length_cons]
            omega
          · rw [HighlightStats.blocks_add, hblocks, hnone]

theorem counts_lines (limits : InlineLimits) (place : Nat) (block : List DiffLine) :
    (lines limits block).2.pairs = (examined place block).length ∧
      (lines limits block).2.Balanced ∧ (lines limits block).2.blocks = 0 := by
  induction block using block_induction generalizing place with
  | nil =>
      rw [lines, examined]
      exact ⟨rfl, rfl, rfl⟩
  | other line rest hkind ih =>
      rw [lines_eq_other rest hkind, examined_other place rest hkind]
      exact ih (place + 1)
  | run olds news rest hstart ih =>
      obtain ⟨hpairs, hbalanced, hblocks⟩ := counts_runs limits olds news
      obtain ⟨hmore, hrest, hnone⟩ := ih (place + olds.length + news.length)
      rw [lines_eq_run hstart, examined_run place hstart]
      refine ⟨?_, hbalanced.add hrest, ?_⟩
      · rw [HighlightStats.pairs_add, hpairs, hmore, List.length_append, List.length_zip,
          List.length_range', List.length_range']
      · rw [HighlightStats.blocks_add, hblocks, hnone]

theorem counts_blocks (limits : InlineLimits) (list : List DiffBlock) :
    (blocks limits list).2.pairs =
        ((list.filter DiffBlock.isMixed).flatMap fun entry => examined 0 entry.lines).length ∧
      (blocks limits list).2.Balanced ∧
      (blocks limits list).2.blocks = (list.filter DiffBlock.isMixed).length := by
  induction list with
  | nil => exact ⟨rfl, rfl, rfl⟩
  | cons entry rest ih =>
      obtain ⟨hmore, hrest, hblocks⟩ := ih
      rw [blocks_eq_cons]
      cases hmixed : entry.isMixed with
      | false =>
          rw [block_eq_unmixed hmixed, HighlightStats.zero_add,
            List.filter_cons_of_neg (by rw [hmixed]; exact Bool.false_ne_true)]
          exact ⟨hmore, hrest, hblocks⟩
      | true =>
          obtain ⟨hpairs, hbalanced, hnone⟩ := counts_lines limits 0 entry.lines
          have hone : HighlightStats.ofBlock.Balanced := rfl
          rw [block_eq_mixed hmixed, List.filter_cons_of_pos hmixed]
          refine ⟨?_, (hone.add hbalanced).add hrest, ?_⟩
          · rw [HighlightStats.pairs_add, HighlightStats.pairs_add, hpairs, hmore,
              List.flatMap_cons, List.length_append]
            exact congrArg (· + _) (Nat.zero_add _)
          · rw [HighlightStats.blocks_add, HighlightStats.blocks_add, hnone, hblocks,
              List.length_cons, Nat.add_comm]
            rfl

def walk (limits : InlineLimits) (entry : DiffBlock) : List DiffLine × HighlightStats :=
  (examined 0 entry.lines).foldl (examine limits) (entry.lines, .zero)

theorem block_eq_walk (limits : InlineLimits) {entry : DiffBlock} (h : entry.isMixed = true) :
    block limits entry = ({ entry with lines := (walk limits entry).1 },
      HighlightStats.ofBlock.add (walk limits entry).2) := by
  have hwalk := foldl_examined limits [] entry.lines .zero
  rw [List.length_nil, List.nil_append, List.nil_append, HighlightStats.zero_add] at hwalk
  unfold walk
  rw [block_eq_mixed h, hwalk]

/-- A pass over a mixed block examines exactly the pairs of lines that have the same number in a
maximal run of removed lines and the maximal run of added lines right behind it: it is the walk
over these pairs, and no line is in two of them.  The counts of a pass are the number of mixed
blocks and the number of these pairs, each of which is highlighted, suppressed or skipped. -/
theorem blocks_by_runs (limits : InlineLimits) (list : List DiffBlock) :
    (forall (place : Nat) (entry : DiffBlock), list[place]? = some entry ->
      entry.isMixed = true ->
        (blocks limits list).1[place]? = some (block limits entry).1 ∧
        block limits entry = ({ entry with lines := (walk limits entry).1 },
          HighlightStats.ofBlock.add (walk limits entry).2) ∧
        (examined 0 entry.lines).Nodup ∧
        (forall removed added : Nat, (removed, added) ∈ examined 0 entry.lines <->
          exists first border stop number, MaximalRun entry.lines .remove first border ∧
            MaximalRun entry.lines .add border stop ∧
            number < min (border - first) (stop - border) ∧
            removed = first + number ∧ added = border + number) ∧
        (forall places others : Nat × Nat, places ∈ examined 0 entry.lines ->
          others ∈ examined 0 entry.lines ->
          places.1 = others.1 ∨ places.1 = others.2 ∨ places.2 = others.1 ∨ places.2 = others.2 ->
          places = others)) ∧
    (blocks limits list).2.blocks = (list.filter DiffBlock.isMixed).length ∧
    (blocks limits list).2.pairs =
      ((list.filter DiffBlock.isMixed).flatMap fun entry => examined 0 entry.lines).length ∧
    (blocks limits list).2.pairs = (blocks limits list).2.highlighted +
      (blocks limits list).2.suppressed + (blocks limits list).2.skipped := by
  obtain ⟨hpairs, hbalanced, hblocks⟩ := counts_blocks limits list
  refine ⟨fun place entry hentry hmixed => ⟨?_, block_eq_walk limits hmixed,
    nodup_examined 0 entry.lines, fun removed added => mem_examined_iff_inRuns, ?_⟩,
    hblocks, hpairs, hbalanced⟩
  · rw [blocks_eq_map, List.getElem?_map, hentry, Option.map_some]
  · rintro ⟨removed, added⟩ ⟨removed', added'⟩ hmem hmem' hshared
    obtain ⟨rfl, rfl⟩ := (mem_examined_iff_inRuns.mp hmem).eq_of_shared
      (mem_examined_iff_inRuns.mp hmem') hshared
    rfl

def unevenSample : DiffBlock where
  hasAdditions := true
  hasRemovals := true
  language := none
  lines := [(.add, "a"), (.remove, "b"), (.remove, "c"), (.add, "d"), (.context, "e"),
    (.remove, "f"), (.add, "f!"), (.add, "g"), (.remove, "h")].map
      fun line => ⟨line.1, [.text (.plain line.2)], "\n"⟩

theorem examined_unevenSample : examined 0 unevenSample.lines = [(1, 3), (5, 6)] := by
  simp [unevenSample, examined, isRemoved, isAdded, List.range'_succ]

theorem blocks_by_runs_uneven :
    unevenSample.isMixed = true ∧ (blocks .standard [unevenSample]).2.pairs = 2 ∧
      (exists first border stop number, MaximalRun unevenSample.lines .remove first border ∧
        MaximalRun unevenSample.lines .add border stop ∧
        number < min (border - first) (stop - border) ∧
        5 = first + number ∧ 6 = border + number) ∧
      (2, 7) ∉ examined 0 unevenSample.lines ∧
      (block .standard unevenSample).1.lines =
        ([(1, 3), (5, 6)].foldl (examine .standard) (unevenSample.lines, .zero)).1 := by
  obtain ⟨hblocks, _, hpairs, _⟩ := blocks_by_runs .standard [unevenSample]
  obtain ⟨_, hwalk, _, hruns, _⟩ := hblocks 0 unevenSample rfl rfl
  refine ⟨rfl, ?_, (hruns 5 6).mp (by simp [examined_unevenSample]),
    by simp [examined_unevenSample], ?_⟩
  · rw [hpairs, List.filter_cons_of_pos rfl, List.filter_nil, List.flatMap_singleton,
      examined_unevenSample]
    rfl
  · rw [hwalk]
    unfold walk
    rw [examined_unevenSample]

end Highlight
end LessonPress

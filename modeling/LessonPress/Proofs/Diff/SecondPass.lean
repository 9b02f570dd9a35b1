import LessonPress.Proofs.Diff.Pairing

/-!
# A second pass

## Highlighting what is highlighted already

A pair that was highlighted carries a mark, since lines that differ do so inside of a span, and
a pair with a mark is left alone.  A pair that was not highlighted is as it was and is judged
as before.  So a second pass changes nothing, and counts as skipped what the first one
highlighted.
-/

namespace LessonPress

theorem DiffLine.MarkedOn.hasMarks {line : DiffLine} {mark : InlineMark} {span : Span}
    (h : line.MarkedOn mark span) : line.hasMarks = true := by
  obtain ⟨before, inside, after, hfragments, _⟩ := h
  unfold DiffLine.hasMarks
  rw [hfragments, List.any_append, List.any_cons]
  exact Bool.or_true _

theorem DiffLine.hasMarks_wrap {span : Span} (line : DiffLine) (mark : InlineMark)
    (h : ¬ span.isEmpty = true) (hstop : span.stop ≤ line.characters.length) :
    (line.wrap span mark).hasMarks = true := by
  have hlt : span.start < span.stop := by
    simpa [Span.isEmpty] using h
  exact (line.markedOn_wrap mark hlt hstop).hasMarks

def HighlightStats.settled (stats : HighlightStats) : HighlightStats :=
  { stats with highlighted := 0, skipped := stats.skipped + stats.highlighted }

theorem HighlightStats.settled_add (a b : HighlightStats) :
    (a.add b).settled = a.settled.add b.settled := by
  unfold add settled
  dsimp only
  congr 1
  omega

namespace Highlight

variable {limits : InlineLimits}

/-!
# Pairs
-/

theorem pair_of_marks {removed added : DiffLine}
    (h : (removed.hasMarks || added.hasMarks) = true) :
    pair limits removed added = ((removed, added), .ofSkipped) := by
  unfold pair
  rw [if_pos h]

theorem pair_of_ok {removed added : DiffLine} {spans : ChangedSpans}
    (h : ¬ (removed.hasMarks || added.hasMarks) = true)
    (hspans : ChangedSpans.compare removed.characters added.characters limits = .ok spans) :
    pair limits removed added =
      ((removed.wrap spans.removed .removed, added.wrap spans.added .added), .ofHighlighted) := by
  unfold pair
  rw [if_neg h, hspans]

theorem pair_of_error {removed added : DiffLine} {verdict : Verdict}
    (h : ¬ (removed.hasMarks || added.hasMarks) = true)
    (hverdict : ChangedSpans.compare removed.characters added.characters limits =
      .error verdict) :
    exists stats : HighlightStats, stats.settled = stats ∧
      pair limits removed added = ((removed, added), stats) := by
  unfold pair
  rw [if_neg h, hverdict]
  cases verdict with
  | identical => exact ⟨.ofSkipped, rfl, rfl⟩
  | nothingInCommon => exact ⟨.ofSuppressed, rfl, rfl⟩
  | tooLong => exact ⟨.ofSuppressed, rfl, rfl⟩
  | tooMuchOfLine => exact ⟨.ofSuppressed, rfl, rfl⟩

theorem hasMarks_of_ok {removed added : DiffLine} {spans : ChangedSpans}
    (h : ChangedSpans.compare removed.characters added.characters limits = .ok spans) :
    ((removed.wrap spans.removed .removed).hasMarks ||
      (added.wrap spans.added .added).hasMarks) = true := by
  have haround := ChangedSpans.around_of_compare h
  rw [Bool.or_eq_true]
  by_cases hremoved : spans.removed.isEmpty = true
  · have hadded : ¬ spans.added.isEmpty = true := fun hnone =>
      ChangedSpans.some_of_compare h ⟨hremoved, hnone⟩
    exact Or.inr (added.hasMarks_wrap .added hadded haround.added_length)
  · exact Or.inl (removed.hasMarks_wrap .removed hremoved haround.removed_length)

theorem pair_again (limits : InlineLimits) (removed added : DiffLine) :
    pair limits (pair limits removed added).1.1 (pair limits removed added).1.2 =
      ((pair limits removed added).1, (pair limits removed added).2.settled) := by
  by_cases hmarks : (removed.hasMarks || added.hasMarks) = true
  · rw [pair_of_marks hmarks]
    exact pair_of_marks hmarks
  · cases hcompare : ChangedSpans.compare removed.characters added.characters limits with
    | ok spans =>
        rw [pair_of_ok hmarks hcompare]
        exact pair_of_marks (hasMarks_of_ok hcompare)
    | error verdict =>
        obtain ⟨stats, hsettled, hpair⟩ := pair_of_error hmarks hcompare
        rw [hpair]
        dsimp only
        rw [hpair, hsettled]

/-!
# Runs and blocks

The runs of a block are where they were, since a pass keeps the kinds of all lines.
-/

theorem runs_again (limits : InlineLimits) (olds news : List DiffLine) :
    runs limits (runs limits olds news).1.1 (runs limits olds news).1.2 =
      ((runs limits olds news).1, (runs limits olds news).2.settled) := by
  induction olds generalizing news with
  | nil =>
      rw [runs_nil_left]
      exact runs_nil_left news
  | cons removed olds ih =>
      cases news with
      | nil =>
          rw [runs_nil_right]
          exact runs_nil_right (removed :: olds)
      | cons added news =>
          rw [runs_eq_cons]
          dsimp only
          rw [runs_eq_cons, pair_again, ih, HighlightStats.settled_add]

theorem kind_pair (removed added : DiffLine) :
    (pair limits removed added).1.1.kind = removed.kind ∧
      (pair limits removed added).1.2.kind = added.kind := by
  obtain ⟨hremoved, hadded⟩ : removed.ReadsAs (pair limits removed added).1.1 ∧
      added.ReadsAs (pair limits removed added).1.2 := readsAs_pair removed added
  exact ⟨hremoved.kind, hadded.kind⟩

theorem kinds_runs (limits : InlineLimits) (olds news : List DiffLine) :
    (runs limits olds news).1.1.map DiffLine.kind = olds.map DiffLine.kind ∧
      (runs limits olds news).1.2.map DiffLine.kind = news.map DiffLine.kind :=
  map_runs limits DiffLine.kind kind_pair olds news

theorem kinds_lines (limits : InlineLimits) (block : List DiffLine) :
    (lines limits block).1.map DiffLine.kind = block.map DiffLine.kind :=
  map_lines limits DiffLine.kind kind_pair block

end Highlight

theorem kindAt_eq_of_kinds {block other : List DiffLine}
    (h : other.map DiffLine.kind = block.map DiffLine.kind) (index : Nat) :
    kindAt other index = kindAt block index := by
  unfold kindAt
  rw [← List.getElem?_map, ← List.getElem?_map, h]

/-- Where the runs of a block are depends on the kinds of its lines alone. -/
theorem StartsWith.of_kinds {olds news rest olds' news' rest' : List DiffLine}
    (h : StartsWith olds news rest) (hold : olds'.map DiffLine.kind = olds.map DiffLine.kind)
    (hnew : news'.map DiffLine.kind = news.map DiffLine.kind)
    (hrest : rest'.map DiffLine.kind = rest.map DiffLine.kind) :
    StartsWith olds' news' rest' := by
  have hall : forall {kind : ChangeKind} {block other : List DiffLine},
      other.map DiffLine.kind = block.map DiffLine.kind ->
      (forall line, line ∈ block -> line.kind = kind) ->
      forall line, line ∈ other -> line.kind = kind := by
    intro kind block other hkinds hblock line hline
    have hmem : line.kind ∈ block.map DiffLine.kind := hkinds ▸ List.mem_map_of_mem hline
    obtain ⟨old, hmember, hsame⟩ := List.mem_map.mp hmem
    rw [← hsame, hblock old hmember]
  constructor
  case some_removed =>
    rintro rfl
    exact h.some_removed (List.map_eq_nil_iff.mp hold.symm)
  case removed => exact hall hold h.removed
  case added => exact hall hnew h.added
  case not_added =>
    rw [kindAt_eq_of_kinds hrest]
    exact h.not_added
  case not_removed =>
    rintro rfl
    rw [kindAt_eq_of_kinds hrest]
    exact h.not_removed (List.map_eq_nil_iff.mp hnew.symm)

namespace Highlight

theorem lines_again (limits : InlineLimits) (block : List DiffLine) :
    lines limits (lines limits block).1 =
      ((lines limits block).1, (lines limits block).2.settled) := by
  induction block using block_induction with
  | nil =>
      rw [lines]
      dsimp only
      rw [lines]
      rfl
  | other line rest hkind ih =>
      rw [lines_eq_other rest hkind]
      dsimp only
      rw [lines_eq_other _ hkind, ih]
  | run olds news rest hstart ih =>
      obtain ⟨holds, hnews⟩ := kinds_runs limits olds news
      have hstart' := hstart.of_kinds holds hnews (kinds_lines limits rest)
      rw [lines_eq_run hstart]
      dsimp only
      rw [lines_eq_run hstart', runs_again, ih, HighlightStats.settled_add]

theorem block_again (limits : InlineLimits) (entry : DiffBlock) :
    block limits (block limits entry).1 =
      ((block limits entry).1, (block limits entry).2.settled) := by
  cases hmixed : entry.isMixed with
  | false =>
      rw [block_eq_unmixed hmixed]
      dsimp only
      rw [block_eq_unmixed hmixed]
      rfl
  | true =>
      have hagain : DiffBlock.isMixed { entry with lines := (lines limits entry.lines).1 } = true :=
        hmixed
      rw [block_eq_mixed hmixed]
      dsimp only
      rw [block_eq_mixed hagain]
      dsimp only
      rw [lines_again, HighlightStats.settled_add]
      rfl

/-- A second pass with the same limits leaves every block as the first pass left it.  It finds
the same blocks and pairs and suppresses the same pairs, highlights none, and skips what the
first pass has skipped or highlighted. -/
theorem blocks_again (limits : InlineLimits) (list : List DiffBlock) :
    blocks limits (blocks limits list).1 =
      ((blocks limits list).1,
        { blocks := (blocks limits list).2.blocks
          pairs := (blocks limits list).2.pairs
          highlighted := 0
          suppressed := (blocks limits list).2.suppressed
          skipped := (blocks limits list).2.skipped + (blocks limits list).2.highlighted }) := by
  change _ = ((blocks limits list).1, (blocks limits list).2.settled)
  induction list with
  | nil => rfl
  | cons entry rest ih =>
      rw [blocks_eq_cons]
      dsimp only
      rw [blocks_eq_cons, block_again, ih, HighlightStats.settled_add]

end Highlight
end LessonPress

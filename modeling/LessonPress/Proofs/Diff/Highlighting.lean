import LessonPress.Proofs.Diff.Marks
import LessonPress.Proofs.Diff.Partners
import LessonPress.Proofs.Diff.Spans

/-!
# Highlighting

## What a pass changes and what it keeps

A pass treats each pair of partners in a mixed block on its own and leaves all other lines
alone.  No line is lost or moved, and every line reads as before, character by character with
the styles.  A pair without earlier marks gets exactly the marks that its changed spans ask
for.
-/

namespace LessonPress
namespace Highlight

variable {limits : InlineLimits}

/-!
# Runs
-/

theorem runs_nil_left (news : List DiffLine) : runs limits [] news = (([], news), .zero) := by
  cases news <;> rfl

theorem runs_nil_right (olds : List DiffLine) : runs limits olds [] = ((olds, []), .zero) := by
  cases olds <;> rfl

theorem runs_eq_cons (removed added : DiffLine) (olds news : List DiffLine) :
    runs limits (removed :: olds) (added :: news) =
      (((pair limits removed added).1.1 :: (runs limits olds news).1.1,
        (pair limits removed added).1.2 :: (runs limits olds news).1.2),
        (pair limits removed added).2.add (runs limits olds news).2) :=
  rfl

theorem runs_cons (removed added : DiffLine) (olds news : List DiffLine) :
    (runs limits (removed :: olds) (added :: news)).1 =
      ((pair limits removed added).1.1 :: (runs limits olds news).1.1,
        (pair limits removed added).1.2 :: (runs limits olds news).1.2) := by
  rfl

theorem map_runs (limits : InlineLimits) {beta : Type} (read : DiffLine -> beta)
    (hpair : forall removed added, read (pair limits removed added).1.1 = read removed ∧
      read (pair limits removed added).1.2 = read added) (olds news : List DiffLine) :
    (runs limits olds news).1.1.map read = olds.map read ∧
      (runs limits olds news).1.2.map read = news.map read := by
  induction olds generalizing news with
  | nil => exact ⟨rfl, rfl⟩
  | cons removed olds ih =>
      cases news with
      | nil => exact ⟨rfl, rfl⟩
      | cons added news =>
          obtain ⟨hremoved, hadded⟩ := hpair removed added
          obtain ⟨holds, hnews⟩ := ih news
          rw [runs_cons, List.map_cons, List.map_cons, List.map_cons, List.map_cons, holds, hnews,
            hremoved, hadded]
          exact ⟨rfl, rfl⟩

theorem length_runs (limits : InlineLimits) (olds news : List DiffLine) :
    (runs limits olds news).1.1.length = olds.length ∧
      (runs limits olds news).1.2.length = news.length := by
  obtain ⟨holds, hnews⟩ := map_runs limits (fun _ => ()) (fun _ _ => ⟨rfl, rfl⟩) olds news
  exact ⟨by simpa using congrArg List.length holds, by simpa using congrArg List.length hnews⟩

theorem getElem?_runs (limits : InlineLimits) {olds news : List DiffLine} {place : Nat}
    {removed added : DiffLine} (hold : olds[place]? = some removed)
    (hnew : news[place]? = some added) :
    (runs limits olds news).1.1[place]? = some (pair limits removed added).1.1 ∧
      (runs limits olds news).1.2[place]? = some (pair limits removed added).1.2 := by
  induction olds generalizing news place with
  | nil => cases hold
  | cons first olds ih =>
      cases news with
      | nil => cases hnew
      | cons other news =>
          rw [runs_cons]
          cases place with
          | zero =>
              cases hold
              cases hnew
              exact ⟨rfl, rfl⟩
          | succ place => exact ih hold hnew

theorem getElem?_runs_lone (olds news : List DiffLine) (place : Nat) :
    (news.length ≤ place -> (runs limits olds news).1.1[place]? = olds[place]?) ∧
      (olds.length ≤ place -> (runs limits olds news).1.2[place]? = news[place]?) := by
  induction olds generalizing news place with
  | nil => exact ⟨fun _ => rfl, fun _ => rfl⟩
  | cons removed olds ih =>
      cases news with
      | nil => exact ⟨fun _ => rfl, fun _ => rfl⟩
      | cons added news =>
          rw [runs_cons]
          cases place with
          | zero => exact ⟨nofun, nofun⟩
          | succ place =>
              exact ⟨fun h => (ih news place).left (Nat.le_of_succ_le_succ h),
                fun h => (ih news place).right (Nat.le_of_succ_le_succ h)⟩

/-!
# Blocks
-/

theorem lines_eq_other {line : DiffLine} (rest : List DiffLine) (h : line.kind ≠ .remove) :
    lines limits (line :: rest) = (line :: (lines limits rest).1, (lines limits rest).2) := by
  rw [lines, if_neg (by simpa [isRemoved] using h)]

theorem lines_other {line : DiffLine} (rest : List DiffLine) (h : line.kind ≠ .remove) :
    (lines limits (line :: rest)).1 = line :: (lines limits rest).1 := by
  rw [lines_eq_other rest h]

theorem lines_eq_run {olds news rest : List DiffLine} (h : StartsWith olds news rest) :
    lines limits (olds ++ news ++ rest) =
      ((runs limits olds news).1.1 ++ (runs limits olds news).1.2 ++ (lines limits rest).1,
        (runs limits olds news).2.add (lines limits rest).2) := by
  obtain ⟨line, more, rfl, hkind, htake, hdrop, htakeNews, hdropNews⟩ := h.exists_found
  rw [List.append_assoc, List.cons_append, lines, if_pos (by simpa [isRemoved] using hkind)]
  dsimp only
  rw [htake, hdrop, htakeNews, hdropNews]

theorem lines_run {olds news rest : List DiffLine} (h : StartsWith olds news rest) :
    (lines limits (olds ++ news ++ rest)).1 =
      (runs limits olds news).1.1 ++ (runs limits olds news).1.2 ++ (lines limits rest).1 := by
  rw [lines_eq_run h]

theorem map_lines (limits : InlineLimits) {beta : Type} (read : DiffLine -> beta)
    (hpair : forall removed added, read (pair limits removed added).1.1 = read removed ∧
      read (pair limits removed added).1.2 = read added) (block : List DiffLine) :
    (lines limits block).1.map read = block.map read := by
  induction block using block_induction with
  | nil => rw [lines]
  | other line rest hkind ih => rw [lines_other rest hkind, List.map_cons, ih, List.map_cons]
  | run olds news rest hstart ih =>
      obtain ⟨holds, hnews⟩ := map_runs limits read hpair olds news
      rw [lines_run hstart]
      simp only [List.map_append, holds, hnews, ih]

theorem length_lines (block : List DiffLine) : (lines limits block).1.length = block.length := by
  have hmap := map_lines limits (fun _ => ()) (fun _ _ => ⟨rfl, rfl⟩) block
  simpa using congrArg List.length hmap

theorem getElem?_between {olds olds' news' : List DiffLine} {place : Nat}
    (hold : olds'.length = olds.length) (hplace : place < news'.length) (rest : List DiffLine) :
    (olds' ++ news' ++ rest)[olds.length + place]? = news'[place]? := by
  rw [List.append_assoc, List.getElem?_append_right (by omega), hold, Nat.add_sub_cancel_left,
    List.getElem?_append_left hplace]

theorem getElem?_behind {olds news olds' news' : List DiffLine} (hold : olds'.length = olds.length)
    (hnew : news'.length = news.length) (rest : List DiffLine) (index : Nat) :
    (olds' ++ news' ++ rest)[olds.length + news.length + index]? = rest[index]? := by
  have hlength : (olds' ++ news').length = olds.length + news.length := by
    rw [List.length_append, hold, hnew]
  rw [List.getElem?_append_right (by omega), hlength, Nat.add_sub_cancel_left]

theorem getElem?_lines_of_partners (limits : InlineLimits) {block : List DiffLine} {old new : Nat}
    {removed added : DiffLine} (h : Partners block old new) (hold : block[old]? = some removed)
    (hnew : block[new]? = some added) :
    (lines limits block).1[old]? = some (pair limits removed added).1.1 ∧
      (lines limits block).1[new]? = some (pair limits removed added).1.2 := by
  induction block using block_induction generalizing old new with
  | nil => cases hold
  | other line rest hkind ih =>
      obtain ⟨place, other, hpartners, rfl, rfl⟩ := (partners_other_iff rest hkind).mp h
      rw [lines_other rest hkind]
      exact ih hpartners hold hnew
  | run olds news rest hstart ih =>
      obtain ⟨holds, hnews⟩ := length_runs limits olds news
      rw [lines_run hstart]
      rcases hstart.partners_iff.mp h with ⟨hlt, hltNews, rfl⟩ | ⟨place, other, hpartners, rfl, rfl⟩
      · rw [List.append_assoc, List.getElem?_append_left hlt] at hold
        rw [getElem?_between rfl hltNews] at hnew
        obtain ⟨hremoved, hadded⟩ := getElem?_runs limits hold hnew
        constructor
        · rw [List.append_assoc, List.getElem?_append_left (by omega), hremoved]
        · rw [getElem?_between holds (by omega), hadded]
      · rw [getElem?_behind rfl rfl] at hold hnew
        rw [getElem?_behind holds hnews, getElem?_behind holds hnews]
        exact ih hpartners hold hnew

def Lone (block : List DiffLine) (index : Nat) : Prop :=
  forall other, ¬ Partners block index other ∧ ¬ Partners block other index

theorem getElem?_lines_of_lone (limits : InlineLimits) {block : List DiffLine} {index : Nat}
    (h : Lone block index) :
    (lines limits block).1[index]? = block[index]? := by
  induction block using block_induction generalizing index with
  | nil => rw [lines]
  | other line rest hkind ih =>
      rw [lines_other rest hkind]
      cases index with
      | zero => rfl
      | succ index =>
          refine ih fun other => ⟨fun hpartners => ?_, fun hpartners => ?_⟩
          · exact (h (other + 1)).left
              ((partners_other_iff rest hkind).mpr ⟨index, other, hpartners, rfl, rfl⟩)
          · exact (h (other + 1)).right
              ((partners_other_iff rest hkind).mpr ⟨other, index, hpartners, rfl, rfl⟩)
  | run olds news rest hstart ih =>
      obtain ⟨holds, hnews⟩ := length_runs limits olds news
      rw [lines_run hstart]
      by_cases hold : index < olds.length
      · have hlone : news.length ≤ index := Nat.le_of_not_lt fun hlt =>
          (h (olds.length + index)).left (hstart.partners_iff.mpr (Or.inl ⟨hold, hlt, rfl⟩))
        rw [List.append_assoc, List.append_assoc, List.getElem?_append_left (by omega),
          List.getElem?_append_left hold]
        exact (getElem?_runs_lone olds news index).left hlone
      · by_cases hnew : index < olds.length + news.length
        · obtain ⟨place, rfl⟩ := Nat.exists_eq_add_of_le (Nat.le_of_not_lt hold)
          have hlone : olds.length ≤ place := Nat.le_of_not_lt fun hlt =>
            (h place).right (hstart.partners_iff.mpr (Or.inl ⟨hlt, by omega, rfl⟩))
          rw [getElem?_between holds (by omega), getElem?_between rfl (by omega)]
          exact (getElem?_runs_lone olds news place).right hlone
        · obtain ⟨place, rfl⟩ := Nat.exists_eq_add_of_le (Nat.le_of_not_lt hnew)
          rw [getElem?_behind holds hnews, getElem?_behind rfl rfl]
          refine ih fun other => ⟨fun hpartners => ?_, fun hpartners => ?_⟩
          · exact (h _).left (hstart.partners_iff.mpr (Or.inr ⟨_, _, hpartners, rfl, rfl⟩))
          · exact (h _).right (hstart.partners_iff.mpr (Or.inr ⟨_, _, hpartners, rfl, rfl⟩))

theorem blocks_eq_cons (first : DiffBlock) (rest : List DiffBlock) :
    blocks limits (first :: rest) =
      ((block limits first).1 :: (blocks limits rest).1,
        (block limits first).2.add (blocks limits rest).2) :=
  rfl

theorem blocks_eq_map (list : List DiffBlock) :
    (blocks limits list).1 = list.map fun entry => (block limits entry).1 := by
  induction list with
  | nil => rfl
  | cons first rest ih => rw [blocks_eq_cons, ih, List.map_cons]

theorem block_eq_mixed {entry : DiffBlock} (h : entry.isMixed = true) :
    block limits entry = ({ entry with lines := (lines limits entry.lines).1 },
      HighlightStats.ofBlock.add (lines limits entry.lines).2) := by
  unfold block
  rw [if_pos h]

theorem block_eq_unmixed {entry : DiffBlock} (h : entry.isMixed = false) :
    block limits entry = (entry, .zero) := by
  unfold block
  rw [if_neg (by rw [h]; exact Bool.false_ne_true)]

theorem block_mixed {entry : DiffBlock} (h : entry.isMixed = true) :
    (block limits entry).1 = { entry with lines := (lines limits entry.lines).1 } := by
  rw [block_eq_mixed h]

theorem block_unmixed {entry : DiffBlock} (h : entry.isMixed = false) :
    (block limits entry).1 = entry := by
  rw [block_eq_unmixed h]

end Highlight

/-!
# What a pass keeps
-/

/-- Another line of the same kind and ending that reads the same, with the same styles. -/
structure DiffLine.ReadsAs (line other : DiffLine) : Prop where
  kind : other.kind = line.kind
  terminator : other.terminator = line.terminator
  view : other.view = line.view

theorem DiffLine.readsAs_self (line : DiffLine) : line.ReadsAs line :=
  ⟨rfl, rfl, rfl⟩

theorem DiffLine.readsAs_wrap {span : Span} (h : span.start ≤ span.stop) (line : DiffLine)
    (mark : InlineMark) : line.ReadsAs (line.wrap span mark) :=
  ⟨kind_wrap line span mark, terminator_wrap line span mark, view_wrap h line mark⟩

namespace Highlight

variable {limits : InlineLimits}

theorem readsAs_pair (removed added : DiffLine) :
    removed.ReadsAs (pair limits removed added).1.1 ∧
      added.ReadsAs (pair limits removed added).1.2 := by
  unfold pair
  split
  · exact ⟨removed.readsAs_self, added.readsAs_self⟩
  · split
    · rename_i spans hspans
      have haround := ChangedSpans.around_of_compare hspans
      exact ⟨removed.readsAs_wrap haround.removed_le _, added.readsAs_wrap haround.added_le _⟩
    · exact ⟨removed.readsAs_self, added.readsAs_self⟩
    · exact ⟨removed.readsAs_self, added.readsAs_self⟩

theorem lone_of_context {block : List DiffLine} {index : Nat} {line : DiffLine}
    (hline : block[index]? = some line) (h : line.kind = .context) : Lone block index := by
  have hkind : kindAt block index = some .context := by
    unfold kindAt
    rw [hline, Option.map_some, h]
  intro other
  constructor
  · intro hpartners
    rw [hpartners.removed_kind] at hkind
    cases hkind
  · intro hpartners
    rw [hpartners.added_kind] at hkind
    cases hkind

theorem exists_line {block : List DiffLine} {index : Nat} {kind : ChangeKind}
    (h : kindAt block index = some kind) : exists line, block[index]? = some line := by
  obtain ⟨line, hline, _⟩ := Option.map_eq_some_iff.mp h
  exact ⟨line, hline⟩

theorem exists_readsAs (limits : InlineLimits) {block : List DiffLine} {index : Nat}
    {line : DiffLine} (hline : block[index]? = some line) :
    exists changed, (lines limits block).1[index]? = some changed ∧ line.ReadsAs changed := by
  by_cases hlone : Lone block index
  · exact ⟨line, (getElem?_lines_of_lone limits hlone).trans hline, line.readsAs_self⟩
  · obtain ⟨other, hother⟩ := Classical.not_forall.mp hlone
    by_cases hremoved : Partners block index other
    · obtain ⟨added, hadded⟩ := exists_line hremoved.added_kind
      have hpair := getElem?_lines_of_partners limits hremoved hline hadded
      exact ⟨_, hpair.left, (readsAs_pair line added).left⟩
    · have hadded : Partners block other index :=
        Classical.byContradiction fun hnone => hother ⟨hremoved, hnone⟩
      obtain ⟨removed, hold⟩ := exists_line hadded.removed_kind
      have hpair := getElem?_lines_of_partners limits hadded hold hline
      exact ⟨_, hpair.right, (readsAs_pair removed line).right⟩

/-- A pass keeps blocks and lines in number and order, the flags and the language of a block,
and what is read on a line.  Blocks that are not mixed, context lines and lines without a
partner stay as they are. -/
theorem blocks_read_same (limits : InlineLimits) (list : List DiffBlock) :
    (blocks limits list).1.length = list.length ∧
      forall (place : Nat) (entry : DiffBlock), list[place]? = some entry ->
        exists changed, (blocks limits list).1[place]? = some changed ∧
          changed.hasAdditions = entry.hasAdditions ∧
          changed.hasRemovals = entry.hasRemovals ∧
          changed.language = entry.language ∧
          changed.lines.length = entry.lines.length ∧
          (entry.isMixed = false -> changed = entry) ∧
          forall (index : Nat) (line : DiffLine), entry.lines[index]? = some line ->
            exists other, changed.lines[index]? = some other ∧ line.ReadsAs other ∧
              (line.kind = .context ∨ Lone entry.lines index -> other = line) := by
  rw [blocks_eq_map]
  refine ⟨List.length_map _, fun place entry hentry => ⟨(block limits entry).1, ?_, ?_⟩⟩
  · rw [List.getElem?_map, hentry, Option.map_some]
  · cases hmixed : entry.isMixed with
    | false =>
        rw [block_unmixed hmixed]
        exact ⟨rfl, rfl, rfl, rfl, fun _ => rfl,
          fun index line hline => ⟨line, hline, line.readsAs_self, fun _ => rfl⟩⟩
    | true =>
        rw [block_mixed hmixed]
        refine ⟨rfl, rfl, rfl, length_lines entry.lines, nofun, fun index line hline => ?_⟩
        obtain ⟨other, hother, hreads⟩ := exists_readsAs limits hline
        refine ⟨other, hother, hreads, fun hstays => ?_⟩
        have hlone : Lone entry.lines index := hstays.elim (lone_of_context hline) id
        have hsame := getElem?_lines_of_lone limits hlone
        rw [hsame, hline] at hother
        exact (Option.some.inj hother).symm

def cutSample : DiffBlock where
  hasAdditions := true
  hasRemovals := true
  language := none
  lines :=
    [⟨.remove, [.text ⟨"ke", some "word"⟩, .text ⟨"epa", none⟩, .text ⟨"", none⟩,
        .text ⟨"bcdk", some "name"⟩, .text ⟨"eep", none⟩], "\n"⟩,
      ⟨.add, [.text ⟨"keepkeep", none⟩], "\n"⟩]

theorem blocks_read_same_cut :
    [cutSample][0]? = some cutSample ∧ cutSample.lines[0]? = some cutSample.lines[0] ∧
      exists changed other, (blocks .standard [cutSample]).1[0]? = some changed ∧
        changed.lines.length = 2 ∧ changed.lines[0]? = some other ∧
        cutSample.lines[0].ReadsAs other := by
  obtain ⟨changed, hchanged, _, _, _, hlength, _, hlines⟩ :=
    (blocks_read_same .standard [cutSample]).right 0 cutSample rfl
  obtain ⟨other, hother, hreads, _⟩ := hlines 0 cutSample.lines[0] rfl
  exact ⟨rfl, rfl, changed, other, hchanged, hlength, hother, hreads⟩

/-!
# Marks of a pair
-/

/-- A pair without earlier marks is left alone if nothing of it is to be marked; otherwise both
lines carry exactly the marks on their changed spans, and outside of the marks they are the
same. -/
theorem marks_of_partners (limits : InlineLimits) {list : List DiffBlock} {place : Nat}
    {entry : DiffBlock} (hentry : list[place]? = some entry) (hmixed : entry.isMixed = true)
    {old new : Nat} (hpartners : Partners entry.lines old new) {removed added : DiffLine}
    (hold : entry.lines[old]? = some removed) (hnew : entry.lines[new]? = some added)
    (hremoved : removed.hasMarks = false) (hadded : added.hasMarks = false) :
    exists changed removed' added', (blocks limits list).1[place]? = some changed ∧
      changed.lines[old]? = some removed' ∧ changed.lines[new]? = some added' ∧
      match ChangedSpans.find? removed.plainText added.plainText limits with
      | none => removed' = removed ∧ added' = added
      | some spans =>
          removed'.characters = removed.characters ∧ removed'.Carries .removed spans.removed ∧
            added'.characters = added.characters ∧ added'.Carries .added spans.added ∧
            removed'.unmarked = added'.unmarked := by
  obtain ⟨hfirst, hsecond⟩ := getElem?_lines_of_partners limits hpartners hold hnew
  refine ⟨(block limits entry).1, (pair limits removed added).1.1, (pair limits removed added).1.2,
    ?_, ?_, ?_, ?_⟩
  · rw [blocks_eq_map, List.getElem?_map, hentry, Option.map_some]
  · rw [block_mixed hmixed, hfirst]
  · rw [block_mixed hmixed, hsecond]
  · have hfind : ChangedSpans.find? removed.plainText added.plainText limits =
        (ChangedSpans.compare removed.characters added.characters limits).toOption := by
      unfold ChangedSpans.find? DiffLine.plainText
      rw [String.toList_ofList, String.toList_ofList]
    have hmarks : ¬ (removed.hasMarks || added.hasMarks) = true := by
      rw [hremoved, hadded]
      exact Bool.false_ne_true
    rw [hfind]
    unfold pair
    rw [if_neg hmarks]
    cases hcompare : ChangedSpans.compare removed.characters added.characters limits with
    | error verdict =>
        cases verdict <;> exact ⟨rfl, rfl⟩
    | ok spans =>
        have haround := ChangedSpans.around_of_compare hcompare
        have hold_same := removed.characters_wrap haround.removed_le .removed
        have hnew_same := added.characters_wrap haround.added_le .added
        have hold_carries := DiffLine.carries_wrap hremoved haround.removed_length .removed
        have hnew_carries := DiffLine.carries_wrap hadded haround.added_length .added
        refine ⟨hold_same, hold_carries, hnew_same, hnew_carries, ?_⟩
        rw [hold_carries.unmarked haround.removed_le, hnew_carries.unmarked haround.added_le,
          hold_same, hnew_same]
        exact haround.cutOut

theorem partners_cutSample : Partners cutSample.lines 0 1 := by
  have hstart : StartsWith [cutSample.lines[0]] [cutSample.lines[1]] [] :=
    ⟨nofun, by simp [cutSample], by simp [cutSample], nofun, nofun⟩
  exact hstart.partners_iff.mpr (Or.inl ⟨Nat.zero_lt_one, Nat.zero_lt_one, rfl⟩)

theorem marks_of_partners_cut :
    Partners cutSample.lines 0 1 ∧
      exists changed removed added, (blocks .standard [cutSample]).1[0]? = some changed ∧
        changed.lines[0]? = some removed ∧ changed.lines[1]? = some added ∧
        removed.MarkedOn .removed ⟨4, 8⟩ ∧ added.hasMarks = false ∧
        removed.unmarked = added.unmarked := by
  have hfind : ChangedSpans.find? cutSample.lines[0].plainText cutSample.lines[1].plainText
      .standard = some ⟨⟨4, 8⟩, ⟨4, 4⟩⟩ := by decide +kernel
  obtain ⟨changed, removed, added, hchanged, hold, hnew, hmarks⟩ :=
    marks_of_partners .standard (show [cutSample][0]? = some cutSample from rfl) rfl
      partners_cutSample (show cutSample.lines[0]? = some cutSample.lines[0] from rfl)
      (show cutSample.lines[1]? = some cutSample.lines[1] from rfl) rfl rfl
  rw [hfind] at hmarks
  obtain ⟨_, hremoved, _, hadded, hunmarked⟩ := hmarks
  exact ⟨partners_cutSample, changed, removed, added, hchanged, hold, hnew, hremoved, hadded,
    hunmarked⟩

end Highlight
end LessonPress

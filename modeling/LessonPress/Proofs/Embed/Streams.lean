import LessonPress.Proofs.Embed.Excerpts
import LessonPress.Proofs.Text.Splitting

/-!
# The hashed streams of an embed

## No two embeds share a stream

The ranges of an identity hold no line feed, so the last line feed of its stream ends the
path, whatever the path holds.  The stream of a content ends every line with a line feed.
Where the ranges are declared they tell how many lines belong to each slice, and where they
are not there is one slice.
-/

namespace LessonPress

open Text

/-!
# Displayed ranges
-/

theorem Text.decimal_inj {n m : Nat} : decimal n = decimal m <-> n = m := by
  constructor
  · intro h
    rw [← decimalValue_decimal n, h, decimalValue_decimal]
  · intro h
    rw [h]

theorem Text.not_mem_decimal {n : Nat} {c : Char} (h : isDigit c = false) : c ∉ decimal n := by
  intro hmem
  rw [isDigit_of_mem_decimal hmem] at h
  cases h

namespace LineRange

theorem mem_display {range : LineRange} {c : Char} (h : c ∈ range.display) :
    isDigit c = true ∨ c = '-' := by
  unfold display at h
  split at h
  · exact .inl (isDigit_of_mem_decimal h)
  · rcases List.mem_append.mp h with hstart | hrest
    · exact .inl (isDigit_of_mem_decimal hstart)
    · rcases List.mem_cons.mp hrest with hdash | hstop
      · exact .inr hdash
      · exact .inl (isDigit_of_mem_decimal hstop)

theorem not_mem_display {range : LineRange} {c : Char} (hdigit : isDigit c = false)
    (hdash : c ≠ '-') : c ∉ range.display := by
  intro hmem
  rcases mem_display hmem with hc | hc
  · rw [hdigit] at hc
    cases hc
  · exact hdash hc

theorem display_ne_nil (range : LineRange) : range.display ≠ [] := by
  unfold display
  split
  · exact decimal_ne_nil range.start
  · simp

theorem splitAt_display (range : LineRange) :
    splitAt '-' range.display =
      if range.start = range.stop then [decimal range.start]
      else [decimal range.start, decimal range.stop] := by
  have hdash : forall n, '-' ∉ decimal n := fun n => not_mem_decimal rfl
  unfold display
  split
  · exact splitAt_of_not_mem (hdash _)
  · rw [splitAt_append, splitAt_of_not_mem (hdash _), splitAt_of_not_mem (hdash _)]
    rfl

theorem display_inj {range other : LineRange} (h : range.display = other.display) :
    range = other := by
  rcases range with ⟨start, stop⟩
  rcases other with ⟨first, last⟩
  have hpieces := congrArg (splitAt '-') h
  rw [splitAt_display, splitAt_display] at hpieces
  dsimp only at hpieces
  split at hpieces <;> split at hpieces <;> simp_all [decimal_inj]

end LineRange

theorem Text.mem_joinWith {separator c : Char} {pieces : List (List Char)}
    (h : c ∈ joinWith [separator] pieces) :
    c = separator ∨ exists piece, piece ∈ pieces ∧ c ∈ piece := by
  induction pieces with
  | nil => cases h
  | cons piece following ih =>
      cases following with
      | nil => exact .inr ⟨piece, List.mem_singleton_self piece, h⟩
      | cons next more =>
          rw [joinWith_cons_cons, List.append_assoc, List.singleton_append] at h
          rcases List.mem_append.mp h with hpiece | hrest
          · exact .inr ⟨piece, List.mem_cons_self, hpiece⟩
          · rcases List.mem_cons.mp hrest with hseparator | hmore
            · exact .inl hseparator
            · rcases ih hmore with hseparator | ⟨other, hother, hc⟩
              · exact .inl hseparator
              · exact .inr ⟨other, List.mem_cons_of_mem _ hother, hc⟩

namespace RangeList

theorem feed_not_mem_display (ranges : RangeList) : '\n' ∉ ranges.display := by
  intro hmem
  rcases mem_joinWith hmem with hcomma | ⟨piece, hpiece, hfeed⟩
  · cases hcomma
  · obtain ⟨range, _, rfl⟩ := List.mem_map.mp hpiece
    exact LineRange.not_mem_display rfl (by decide) hfeed

theorem splitAt_display {ranges : RangeList} (h : ranges ≠ []) :
    splitAt ',' ranges.display = ranges.map LineRange.display := by
  apply splitAt_joinWith
  · simpa using h
  · intro piece hpiece
    obtain ⟨range, _, rfl⟩ := List.mem_map.mp hpiece
    exact LineRange.not_mem_display rfl (by decide)

theorem display_eq_nil_iff {ranges : RangeList} : ranges.display = [] <-> ranges = [] := by
  constructor
  · intro h
    by_contra hne
    have hpieces := splitAt_display hne
    rw [h] at hpieces
    cases ranges with
    | nil => exact hne rfl
    | cons range rest =>
        rw [List.map_cons] at hpieces
        exact LineRange.display_ne_nil range (List.cons.inj hpieces).left.symm
  · intro h
    rw [h]
    rfl

theorem display_inj {ranges other : RangeList} :
    ranges.display = other.display <-> ranges = other := by
  constructor
  · intro h
    by_cases hranges : ranges = []
    · rw [hranges, (display_eq_nil_iff.mp (h.symm.trans (display_eq_nil_iff.mpr hranges)))]
    · have hother : other ≠ [] := by
        intro hempty
        exact hranges (display_eq_nil_iff.mp (h.trans (display_eq_nil_iff.mpr hempty)))
      have hpieces := congrArg (splitAt ',') h
      rw [splitAt_display hranges, splitAt_display hother] at hpieces
      exact List.map_injective_iff.mpr (fun _ _ => LineRange.display_inj) hpieces
  · intro h
    rw [h]

end RangeList

namespace EmbedIdentity

def bytes (path : FilePath) (ranges : RangeList) : ByteArray :=
  (String.ofList (stream path ranges)).toUTF8

def contentBytes (slices : List (List Char)) : ByteArray :=
  (String.ofList (contentStream slices)).toUTF8

theorem bytes_ofList_inj {text other : List Char} :
    (String.ofList text).toUTF8 = (String.ofList other).toUTF8 <-> text = other :=
  String.toByteArray_inj.trans String.ofList_inj

/-- The last line feed ends the path. -/
theorem stream_inj {path other : FilePath} {ranges more : RangeList} :
    stream path ranges = stream other more <-> path.text = other.text ∧ ranges = more := by
  unfold stream
  constructor
  · intro h
    have hpieces := congrArg (splitAt '\n') h
    rw [splitAt_append, splitAt_append, splitAt_of_not_mem ranges.feed_not_mem_display,
      splitAt_of_not_mem more.feed_not_mem_display] at hpieces
    rcases List.append_inj' hpieces rfl with ⟨hpaths, hranges⟩
    constructor
    · have hchars := congrArg joinLines hpaths
      rw [joinLines_splitAt, joinLines_splitAt] at hchars
      exact String.toList_inj.mp hchars
    · exact RangeList.display_inj.mp (List.singleton_inj.mp hranges)
  · intro h
    unfold FilePath.chars
    rw [h.left, h.right]

theorem bytes_inj {path other : FilePath} {ranges more : RangeList} :
    bytes path ranges = bytes other more <-> path.text = other.text ∧ ranges = more :=
  bytes_ofList_inj.trans stream_inj

/-!
# Contents
-/

theorem splitAt_flatMap {lines : List Line} (h : forall line, line ∈ lines -> '\n' ∉ line) :
    splitAt '\n' (lines.flatMap fun line => line ++ ['\n']) = lines ++ [[]] := by
  induction lines with
  | nil => rfl
  | cons line rest ih =>
      rcases List.forall_mem_cons.mp h with ⟨hline, hrest⟩
      rw [List.flatMap_cons, List.append_assoc, List.singleton_append, splitAt_append,
        splitAt_of_not_mem hline, ih hrest]
      rfl

theorem joinLines_feed {block : List Line} (h : block ≠ []) :
    joinLines block ++ ['\n'] = block.flatMap fun line => line ++ ['\n'] := by
  induction block with
  | nil => exact absurd rfl h
  | cons line rest ih =>
      cases rest with
      | nil => simp [joinLines]
      | cons next more =>
          rw [List.flatMap_cons, ← ih (List.cons_ne_nil _ _), joinLines_cons_cons]
          simp

theorem contentStream_joinLines {blocks : List (List Line)}
    (h : forall block, block ∈ blocks -> block ≠ []) :
    contentStream (blocks.map joinLines) =
      blocks.flatten.flatMap fun line => line ++ ['\n'] := by
  unfold contentStream
  induction blocks with
  | nil => rfl
  | cons block rest ih =>
      rcases List.forall_mem_cons.mp h with ⟨hblock, hrest⟩
      rw [List.map_cons, List.flatMap_cons, joinLines_feed hblock, ih hrest, List.flatten_cons,
        List.flatMap_append]

theorem blocks_inj {blocks others : List (List Line)}
    (hlengths : blocks.map List.length = others.map List.length)
    (hsome : forall block, block ∈ blocks ++ others -> block ≠ [])
    (hlines : forall block, block ∈ blocks ++ others -> forall line, line ∈ block -> '\n' ∉ line)
    (h : contentStream (blocks.map joinLines) = contentStream (others.map joinLines)) :
    blocks = others := by
  have hblocks := fun block hblock => hsome block (List.mem_append_left others hblock)
  have hothers := fun block hblock => hsome block (List.mem_append_right blocks hblock)
  rw [contentStream_joinLines hblocks, contentStream_joinLines hothers] at h
  have hpieces := congrArg (splitAt '\n') h
  rw [splitAt_flatMap, splitAt_flatMap] at hpieces
  · have hflat := (List.append_inj' hpieces rfl).left
    exact List.eq_iff_flatten_eq.mpr ⟨hflat, hlengths⟩
  · intro line hline
    obtain ⟨block, hblock, hmem⟩ := List.mem_flatten.mp hline
    exact hlines block (List.mem_append_right blocks hblock) line hmem
  · intro line hline
    obtain ⟨block, hblock, hmem⟩ := List.mem_flatten.mp hline
    exact hlines block (List.mem_append_left others hblock) line hmem

end EmbedIdentity

namespace Directive

open EmbedIdentity (contentStream contentBytes)

variable {tag more : Tag} {directory place : FilePath} {sources loaded : Sources}
  {directive other : Directive}

theorem feed_not_mem_slice {source : SourceText} {range : LineRange} {line : Line}
    (h : line ∈ slice source range) : '\n' ∉ line :=
  feed_not_mem_of_mem_lines (List.mem_of_mem_take (List.mem_of_mem_drop h))

theorem slices_eq (directive : Directive) :
    directive.slices =
      (directive.effectiveRanges.map (slice directive.source)).map joinLines := by
  unfold slices
  rw [List.map_map]
  rfl

theorem slices_of_eq_nil (h : directive.ranges = []) :
    directive.slices =
      [joinLines (slice directive.source ⟨1, max directive.source.lineCount 1⟩)] := by
  rw [slices_eq, effectiveRanges_of_eq_nil h]
  rfl

theorem Accepted.length_slice (h : Accepted tag directory sources directive)
    {range : LineRange} (hrange : range ∈ directive.ranges) :
    (slice directive.source range).length = range.stop + 1 - range.start ∧
      slice directive.source range ≠ [] := by
  have hlines := h.ranges.ascending.lines range hrange
  rcases selects_slice hlines.left hlines.right (h.inside range hrange) with
    ⟨before, after, _, hstart, hstop⟩
  have hlength : (slice directive.source range).length = range.stop + 1 - range.start := by omega
  refine ⟨hlength, fun hempty => ?_⟩
  rw [hempty, List.length_nil] at hlength
  omega

/-- The streams of two contents under the same declared ranges tell their slices. -/
theorem Accepted.contentStream_inj (h : Accepted tag directory sources directive)
    (hother : Accepted more place loaded other) (hranges : directive.ranges = other.ranges) :
    contentStream directive.slices = contentStream other.slices <->
      directive.slices = other.slices := by
  constructor
  · intro hstreams
    by_cases hnone : directive.ranges = []
    · rw [slices_of_eq_nil hnone, slices_of_eq_nil (hranges.symm.trans hnone)] at hstreams ⊢
      simpa [contentStream] using hstreams
    · rw [slices_eq, slices_eq, effectiveRanges_of_ne_nil hnone,
        effectiveRanges_of_ne_nil (hranges ▸ hnone), ← hranges] at hstreams ⊢
      refine congrArg (List.map joinLines) (EmbedIdentity.blocks_inj ?_ ?_ ?_ hstreams)
      · rw [List.map_map, List.map_map]
        apply List.map_congr_left
        intro range hrange
        exact (h.length_slice hrange).left.trans (hother.length_slice (hranges ▸ hrange)).left.symm
      · intro block hblock
        rcases List.mem_append.mp hblock with hown | hlater
        · obtain ⟨range, hrange, rfl⟩ := List.mem_map.mp hown
          exact (h.length_slice hrange).right
        · obtain ⟨range, hrange, rfl⟩ := List.mem_map.mp hlater
          exact (hother.length_slice (hranges ▸ hrange)).right
      · intro block hblock line hline
        rcases List.mem_append.mp hblock with hown | hlater
        · obtain ⟨range, _, rfl⟩ := List.mem_map.mp hown
          exact feed_not_mem_slice hline
        · obtain ⟨range, _, rfl⟩ := List.mem_map.mp hlater
          exact feed_not_mem_slice hline
  · intro hslices
    rw [hslices]

theorem Accepted.contentBytes_inj (h : Accepted tag directory sources directive)
    (hother : Accepted more place loaded other) (hranges : directive.ranges = other.ranges) :
    contentBytes directive.slices = contentBytes other.slices <->
      directive.slices = other.slices :=
  EmbedIdentity.bytes_ofList_inj.trans (h.contentStream_inj hother hranges)

end Directive
end LessonPress

import LessonPress.Proofs.Embed.Acceptance

/-!
# Excerpts

## The lines that a valid directive shows, and where they are highlighted

Each range shows exactly its lines of the file.  The ranges lie apart, and whatever is highlighted
lies inside one of them, so the code blocks share the highlighted ranges out among them: none is
lost, and none is shown twice.
-/

namespace LessonPress

def LineRange.Selects (range : LineRange) (lines shown : List Text.Line) : Prop :=
  exists before after, lines = before ++ shown ++ after ∧ before.length + 1 = range.start ∧
    before.length + shown.length = range.stop

/-!
# Ranges inside ranges
-/

namespace RangeList

theorem filter_append_filter_not {p : LineRange -> Bool} {ranges : List LineRange}
    (h : ranges.Pairwise fun range later => p later = true -> p range = true) :
    ranges.filter p ++ ranges.filter (fun range => !p range) = ranges := by
  induction ranges with
  | nil => rfl
  | cons range rest ih =>
      have hrest := ih (List.Pairwise.of_cons h)
      cases hrange : p range with
      | true =>
          rw [List.filter_cons_of_pos hrange, List.filter_cons_of_neg (by rw [hrange]; decide),
            List.cons_append, hrest]
      | false =>
          have hnone : rest.filter p = [] := by
            rw [List.filter_eq_nil_iff]
            intro later hlater hp
            rw [List.rel_of_pairwise_cons h hlater hp] at hrange
            cases hrange
          rw [hnone, List.nil_append] at hrest
          rw [List.filter_cons_of_neg (by rw [hrange]; decide),
            List.filter_cons_of_pos (by rw [hrange]; decide), hnone, List.nil_append, hrest]

/-- Ranges of which each lies inside one of some ranges in order are shared out among these. -/
theorem flatMap_filter_contains {outers inners : List LineRange}
    (houters : outers.Pairwise fun outer later => outer.stop < later.start)
    (hinners : inners.Pairwise fun inner later => inner.stop < later.start)
    (hlines : forall inner, inner ∈ inners -> inner.start ≤ inner.stop)
    (hcovers : forall inner, inner ∈ inners -> covers outers inner = true) :
    (outers.flatMap fun outer => inners.filter outer.contains) = inners := by
  induction outers generalizing inners with
  | nil =>
      cases inners with
      | nil => rfl
      | cons inner rest => cases hcovers inner List.mem_cons_self
  | cons outer rest ih =>
      -- a range inside a later one lies behind the first one
      have hbehind : forall inner later, later ∈ rest -> later.contains inner = true ->
          outer.stop < inner.start := by
        intro inner later hlater hinside
        have hapart := List.rel_of_pairwise_cons houters hlater
        have hstart := (LineRange.contains_iff.mp hinside).left
        omega
      have hlater : forall inner, inner ∈ inners -> outer.contains inner = false ->
          covers rest inner = true := by
        intro inner hinner houtside
        have hcovered := hcovers inner hinner
        rw [covers, List.any_cons, houtside, Bool.false_or] at hcovered
        exact hcovered
      have hfirst : inners.Pairwise fun inner later =>
          outer.contains later = true -> outer.contains inner = true := by
        refine hinners.imp_of_mem fun {inner later} hinner hmem hapart hinside => ?_
        by_contra houtside
        rcases covers_iff.mp (hlater inner hinner (by simpa using houtside)) with
          ⟨other, hother, hstart, hstop⟩
        have hinnerBehind := hbehind inner other hother
          (LineRange.contains_iff.mpr ⟨hstart, hstop⟩)
        have hend := (LineRange.contains_iff.mp hinside).right
        have hinnerLines := hlines inner hinner
        have hlaterLines := hlines later hmem
        omega
      have hrest : (rest.flatMap fun other => inners.filter other.contains) =
          rest.flatMap fun other =>
            (inners.filter fun inner => !outer.contains inner).filter other.contains := by
        refine List.flatMap_congr fun other hother => ?_
        rw [List.filter_filter]
        refine List.filter_congr fun inner hinner => ?_
        cases hinside : other.contains inner with
        | false => rfl
        | true =>
            have hapart : ¬ outer.contains inner = true := by
              intro hfirst
              have hend := (LineRange.contains_iff.mp hfirst).right
              have hstart := hbehind inner other hother hinside
              have hown := hlines inner hinner
              omega
            simpa using hapart
      rw [List.flatMap_cons, hrest, ih (List.Pairwise.of_cons houters)]
      · exact filter_append_filter_not hfirst
      · exact hinners.filter _
      · exact fun inner hinner => hlines inner (List.mem_of_mem_filter hinner)
      · intro inner hinner
        rcases List.mem_filter.mp hinner with ⟨hmem, houtside⟩
        exact hlater inner hmem (by simpa using houtside)

end RangeList

/-!
# Lines of a file
-/

namespace Sources

variable {fs : FileSystem} {paths : List FilePath}

theorem eq_read_of_mem_preload {path : FilePath} {loaded : LoadedFile}
    (h : (path, loaded) ∈ (preload fs paths).files) : loaded = .read fs path := by
  unfold preload at h
  induction paths using List.reverseRecOn with
  | nil => cases h
  | append_singleton earlier next ih =>
      rw [List.foldl_append, List.foldl_cons, List.foldl_nil, load] at h
      split at h
      · exact ih h
      · cases List.mem_append.mp h with
        | inl hearlier => exact ih hearlier
        | inr hown =>
            cases List.mem_singleton.mp hown
            rfl

theorem textAt_of_find?_preload {path : FilePath} {source : SourceText}
    (h : (preload fs paths).find? path = some (.text source)) :
    source.path.same path = true ∧ fs.textAt source.path = .ok source.text := by
  unfold find? at h
  rcases Option.map_eq_some_iff.mp h with ⟨⟨other, loaded⟩, hfound, hloaded⟩
  have hread := eq_read_of_mem_preload (List.mem_of_find?_eq_some hfound)
  have hsame := List.find?_some hfound
  dsimp only at hsame
  have hsource := hread.symm.trans hloaded
  rw [LoadedFile.path_of_read hsource]
  exact ⟨hsame, LoadedFile.textAt_of_read hsource⟩

end Sources

namespace Directive

structure Shown where
  range : LineRange
  lines : List Text.Line
  excerpt : ExcerptMeta
  block : CodeBlock

structure Shown.Faithful (shown : Shown) : Prop where
  value : shown.block.value = String.ofList (Excerpt.dedent shown.lines)
  excerpt : shown.block.excerpt = some shown.excerpt
  startLine : shown.excerpt.startLine = shown.range.start
  inside : forall inner, inner ∈ shown.excerpt.highlight ->
    shown.range.start ≤ inner.start ∧ inner.stop ≤ shown.range.stop

/-- What a directive shows: the lines of each of its ranges, or the whole file if it has none, with
each highlighted range in one place. -/
structure Excerpts (directive : Directive) (all : List Shown) : Prop where
  faithful : forall shown, shown ∈ all -> shown.Faithful
  ranges : all.map Shown.range = directive.effectiveRanges
  texts : all.map (fun shown => Text.joinLines shown.lines) = directive.slices
  declared : directive.ranges ≠ [] -> all.map Shown.range = directive.ranges ∧
    forall shown, shown ∈ all -> shown.range.Selects directive.source.lines shown.lines
  whole : directive.ranges = [] -> exists shown, all = [shown] ∧ shown.range.start = 1 ∧
    shown.lines = directive.source.lines
  highlight : (all.flatMap fun shown => shown.excerpt.highlight) = directive.highlight
  once : all.Pairwise fun shown later =>
    List.Disjoint shown.excerpt.highlight later.excerpt.highlight

theorem selects_slice {source : SourceText} {range : LineRange} (hstart : 1 ≤ range.start)
    (hlines : range.start ≤ range.stop) (hstop : range.stop ≤ source.lineCount) :
    range.Selects source.lines (slice source range) := by
  unfold SourceText.lineCount at hstop
  refine ⟨(source.lines.take range.stop).take (range.start - 1), source.lines.drop range.stop, ?_,
    ?_, ?_⟩
  · unfold slice
    rw [List.take_append_drop, List.take_append_drop]
  · rw [List.length_take, List.length_take]
    omega
  · unfold slice
    rw [List.length_take, List.length_drop, List.length_take]
    omega

theorem slice_whole (source : SourceText) :
    slice source ⟨1, max source.lineCount 1⟩ = source.lines := by
  unfold slice
  rw [Nat.sub_self, List.drop_zero]
  exact List.take_of_length_le (Nat.le_max_left _ _)

theorem coveringRanges_ascending {ranges : RangeList} (h : RangeList.Ascending ranges)
    (source : SourceText) : RangeList.Ascending (coveringRanges ranges source) := by
  by_cases hempty : ranges = []
  · rw [hempty, coveringRanges_nil]
    refine ⟨fun range hrange => ?_, .singleton _⟩
    rw [List.mem_singleton.mp hrange]
    exact ⟨Nat.le_refl 1, Nat.le_max_right _ _⟩
  · rw [coveringRanges_of_ne_nil hempty]
    exact h

def shownAt (directive : Directive) (position : Position) (range : LineRange) : Shown where
  range := range
  lines := slice directive.source range
  excerpt := directive.excerpt range
  block := directive.codeBlock position range

theorem faithful_shownAt (directive : Directive) (position : Position) (range : LineRange) :
    (directive.shownAt position range).Faithful where
  value := rfl
  excerpt := rfl
  startLine := rfl
  inside _ hinner := LineRange.contains_iff.mp (List.mem_filter.mp hinner).right

variable {tag : Tag} {directory : FilePath} {sources : Sources} {directive : Directive}

theorem effectiveRanges_of_ne_nil (h : directive.ranges ≠ []) :
    directive.effectiveRanges = directive.ranges :=
  coveringRanges_of_ne_nil h directive.source

theorem effectiveRanges_of_eq_nil (h : directive.ranges = []) :
    directive.effectiveRanges = [⟨1, max directive.source.lineCount 1⟩] := by
  unfold effectiveRanges
  rw [h, coveringRanges_nil]

theorem Accepted.flatMap_highlightWithin (h : Accepted tag directory sources directive) :
    directive.effectiveRanges.flatMap directive.highlightWithin = directive.highlight := by
  have hshown := coveringRanges_ascending h.ranges.ascending directive.source
  have hhighlight := h.highlight.ascending
  refine RangeList.flatMap_filter_contains hshown.pairwise hhighlight.pairwise ?_ ?_
  · exact fun inner hinner => (hhighlight.lines inner hinner).right
  · intro inner hinner
    exact (h.ranges.covers_iff directive.source inner).mpr (h.covered inner hinner)

theorem Accepted.excerpts (h : Accepted tag directory sources directive) (position : Position) :
    directive.Excerpts (directive.effectiveRanges.map (directive.shownAt position)) := by
  have hranges : (directive.effectiveRanges.map (directive.shownAt position)).map Shown.range =
      directive.effectiveRanges := by
    rw [List.map_map]
    exact List.map_id _
  have hhighlight : ((directive.effectiveRanges.map (directive.shownAt position)).flatMap
      fun shown => shown.excerpt.highlight) = directive.highlight := by
    rw [List.flatMap_map]
    exact h.flatMap_highlightWithin
  constructor
  case faithful =>
    intro shown hshown
    rcases List.mem_map.mp hshown with ⟨range, _, rfl⟩
    exact faithful_shownAt directive position range
  case ranges => exact hranges
  case texts =>
    rw [List.map_map]
    rfl
  case declared =>
    intro hsome
    rw [hranges, effectiveRanges_of_ne_nil hsome]
    refine ⟨rfl, fun shown hshown => ?_⟩
    rcases List.mem_map.mp hshown with ⟨range, hrange, rfl⟩
    have hlines := h.ranges.ascending.lines range hrange
    exact selects_slice hlines.left hlines.right (h.inside range hrange)
  case whole =>
    intro hnone
    rw [effectiveRanges_of_eq_nil hnone]
    exact ⟨_, rfl, rfl, slice_whole directive.source⟩
  case highlight => exact hhighlight
  case once =>
    have hnodup : directive.highlight.Nodup := by
      refine h.highlight.ascending.pairwise.imp_of_mem fun {range later} hrange _ hapart => ?_
      have hlines := h.highlight.ascending.lines range hrange
      rintro rfl
      omega
    rw [← hhighlight, List.nodup_flatMap] at hnodup
    exact hnodup.right

end Directive

namespace Expansion

theorem nodes_of_replaces {context : EmbedContext} {site : Site} {directive : Directive}
    {nodes : List Node}
    (htag : Directive.ofTag site.tag context.directory context.sources = .ok directive)
    (h : Replaces context site nodes) :
    nodes = (directive.codeBlocks site.position).map Node.code ∨
      nodes = driftDiagnostic directive.driftMessage ::
        (directive.codeBlocks site.position).map Node.code := by
  have hcodes : (directive.codeBlocks site.position).map Node.code =
      directive.effectiveRanges.map fun range => .code (directive.codeBlock site.position range) :=
    List.map_map
  rw [hcodes]
  cases h with
  | refused hrefused =>
      rw [htag] at hrefused
      cases hrefused
  | shown hshown =>
      rw [htag] at hshown
      cases hshown
      exact Or.inl rfl
  | drifted hdrifted =>
      rw [htag] at hdrifted
      cases hdrifted
      exact Or.inr rfl

/-- A valid directive gives way to one code block for each of its ranges, after at most one
warning.  The blocks hold the lines of the file, each highlighted range is in exactly one of them,
and the file that was loaded is the one on the disk. -/
theorem expandDirective_excerpts {context : EmbedContext} {tag : Tag} {directive : Directive}
    (h : Directive.ofTag tag context.directory context.sources = .ok directive)
    (position : Position) (before : Expansion) :
    exists all, directive.Excerpts all ∧
      ((expandDirective context tag position before).1 =
          all.map (fun shown => Node.code shown.block) ∨
        (expandDirective context tag position before).1 =
          driftDiagnostic directive.driftMessage ::
            all.map fun shown => Node.code shown.block) ∧
      forall fs paths, context.sources = .preload fs paths ->
        directive.path.same (Directive.resolve context.directory directive.file) = true ∧
          fs.textAt directive.path = .ok directive.source.text := by
  have haccepted := Directive.accepted_of_ofTag h
  refine ⟨_, haccepted.excerpts position, ?_, fun fs paths hloaded => ?_⟩
  · have hreplaces := (adds_expandDirective context ⟨tag, [], position⟩ before).left
    have hblocks : (directive.codeBlocks position).map Node.code =
        (directive.effectiveRanges.map (directive.shownAt position)).map
          fun shown => Node.code shown.block := by
      unfold Directive.codeBlocks
      rw [List.map_map, List.map_map]
      rfl
    rw [← hblocks]
    exact nodes_of_replaces h hreplaces
  · have hsource := haccepted.source
    rw [hloaded] at hsource
    exact Sources.textAt_of_find?_preload hsource

def fourLines : FileSystem :=
  (FileSystem.new [] ⟨0, 0⟩).put ["a.ts"] (.file ⟨"a\r\n b\n\nd".toUTF8, ⟨0, 0⟩⟩)

def partsTag : Tag where
  name := Directive.elementName
  attributes :=
    [⟨"file", .string "a.ts"⟩, ⟨"range", .string "1-2,4"⟩, ⟨"highlight", .string "2,4"⟩]
  selfClosing := true

def partsContext : EmbedContext where
  directory := ⟨""⟩
  lines := []
  sources := Sources.preload fourLines [⟨"a.ts"⟩]

theorem expandDirective_excerpts_parts :
    exists directive all,
      Directive.ofTag partsTag partsContext.directory partsContext.sources = .ok directive ∧
        directive.ranges = [⟨1, 2⟩, ⟨4, 4⟩] ∧ directive.highlight = [⟨2, 2⟩, ⟨4, 4⟩] ∧
        directive.Excerpts all ∧ fourLines.textAt directive.path = .ok directive.source.text := by
  have hvalues : ((Directive.ofTag partsTag partsContext.directory partsContext.sources).map
      fun directive => (directive.ranges, directive.highlight)).toOption =
        some ([⟨1, 2⟩, ⟨4, 4⟩], [⟨2, 2⟩, ⟨4, 4⟩]) := by
    decide +kernel
  cases htag : Directive.ofTag partsTag partsContext.directory partsContext.sources with
  | error faults =>
      rw [htag] at hvalues
      cases hvalues
  | ok directive =>
      rw [htag] at hvalues
      have hboth := Prod.mk.inj (Option.some.inj hvalues)
      rcases expandDirective_excerpts htag ⟨1, 1⟩ (.start .empty) with ⟨all, hall, _, hfile⟩
      exact ⟨directive, all, rfl, hboth.left, hboth.right, hall, (hfile fourLines _ rfl).right⟩

end Expansion
end LessonPress

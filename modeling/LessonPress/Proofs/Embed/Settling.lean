import LessonPress.Proofs.Embed.Reports

/-!
# Settled ledgers

## Documents that are expanded a second time

Once a content has been observed it is the last one of its embed, and it is not the baseline of
a warning that is outstanding.  From then on it is unchanged.  So a document that is expanded
again with the ledger that it has left gets no warnings, unless two of its directives are taken
for the same embed.
-/

namespace LessonPress

open Node (outermostAll)

namespace DriftLedger

/-- The content is the last one of the embed, and it is no baseline. -/
def Settled (ledger : DriftLedger) (identity content : ContentHash) : Prop :=
  exists record, ledger.find? identity = some record ∧ record.last = content ∧
    record.baseline ≠ some content

variable {ledger : DriftLedger} {identity content : ContentHash}

/-- Whatever a content is taken for, its record is settled. -/
theorem settled_judge (record : Option DriftRecord) (content : ContentHash) :
    (judge record content).2.last = content ∧
      (judge record content).2.baseline ≠ some content := by
  unfold judge
  cases record with
  | none => exact ⟨rfl, nofun⟩
  | some known =>
      dsimp only
      split
      · exact ⟨rfl, nofun⟩
      · rename_i hbaseline
        split
        · rename_i hlast
          exact ⟨rfl, fun heq => hlast (Option.some.inj heq)⟩
        · exact ⟨rfl, hbaseline⟩

theorem settled_observe (ledger : DriftLedger) (identity content : ContentHash) :
    (ledger.observe identity content).2.Settled identity content :=
  ⟨_, find?_observe_self ledger identity content,
    settled_judge (ledger.find? identity) content⟩

theorem Settled.observe (h : ledger.Settled identity content) {other current : ContentHash}
    (hsame : other = identity -> current = content) :
    (ledger.observe other current).2.Settled identity content := by
  by_cases hother : other = identity
  · rw [hsame hother, hother]
    exact settled_observe ledger identity content
  · obtain ⟨record, hfind, hrecord⟩ := h
    refine ⟨record, ?_, hrecord⟩
    rw [find?_observe_of_ne ledger current (Ne.symm hother)]
    exact hfind

theorem Settled.status (h : ledger.Settled identity content) :
    (ledger.observe identity content).1 = .unchanged := by
  obtain ⟨record, hfind, hlast, hbaseline⟩ := h
  unfold DriftLedger.observe judge
  rw [hfind]
  dsimp only
  rw [if_neg hbaseline, if_neg (not_not_intro hlast)]

end DriftLedger

/-!
# Directives
-/

namespace Site

variable {context : EmbedContext} {sites : List Site}

def Settled (context : EmbedContext) (ledger : DriftLedger) (site : Site) : Prop :=
  forall directive, site.directive? context = some directive ->
    ledger.Settled directive.identity (EmbedIdentity.ofSlices directive.slices)

/-- Directives that are taken for the same embed show the same. -/
def Agree (context : EmbedContext) (sites : List Site) : Prop :=
  forall site, site ∈ sites -> forall other, other ∈ sites -> forall directive shown,
    site.directive? context = some directive -> other.directive? context = some shown ->
    directive.identity = shown.identity ->
    EmbedIdentity.ofSlices directive.slices = EmbedIdentity.ofSlices shown.slices

theorem Agree.of_subset {others : List Site} (h : Agree context sites)
    (hsubset : forall site, site ∈ others -> site ∈ sites) : Agree context others :=
  fun site hsite other hother => h site (hsubset site hsite) other (hsubset other hother)

theorem Settled.observe {site other : Site} {ledger : DriftLedger} (h : Agree context sites)
    (hsite : site ∈ sites) (hother : other ∈ sites) (hsettled : site.Settled context ledger) :
    site.Settled context (other.observe context ledger) := by
  intro directive hdirective
  unfold Site.observe
  cases hshown : other.directive? context with
  | none => exact hsettled directive hdirective
  | some shown =>
      refine (hsettled directive hdirective).observe fun hidentity => ?_
      exact h other hother site hsite shown directive hshown hdirective hidentity

theorem settled_observe (ledger : DriftLedger) (site : Site) :
    site.Settled context (site.observe context ledger) := by
  intro directive hdirective
  unfold observe
  rw [hdirective]
  exact DriftLedger.settled_observe ledger _ _

/-- After all directives of a document have been observed, all are settled. -/
theorem settled_foldl_observe (h : Agree context sites) (ledger : DriftLedger) :
    forall site, site ∈ sites -> site.Settled context (sites.foldl (observe context) ledger) := by
  induction sites using List.reverseRecOn with
  | nil => nofun
  | append_singleton front last ih =>
      have hlast : last ∈ front ++ [last] := List.mem_append_right _ (List.mem_singleton_self last)
      have hfront := ih (h.of_subset fun site hsite => List.mem_append_left _ hsite)
      intro site hsite
      rw [List.foldl_append, List.foldl_cons, List.foldl_nil]
      rcases List.mem_append.mp hsite with hearlier | hown
      · exact Settled.observe h hsite hlast (hfront site hearlier)
      · rw [List.mem_singleton.mp hown]
        exact settled_observe _ last

end Site

namespace Expansion

variable {context : EmbedContext} {sites : List Site}

theorem warnings_expandDirective {site : Site} {before : Expansion}
    (h : site.Settled context before.ledger) :
    (expandDirective context site.tag site.position before).2.warnings = before.warnings := by
  unfold expandDirective
  cases htag : Directive.ofTag site.tag context.directory context.sources with
  | error faults => rfl
  | ok directive =>
      have hvalid : site.directive? context = some directive := by
        unfold Site.directive?
        rw [htag]
        rfl
      have hstatus := (h directive hvalid).status
      unfold expandValid
      dsimp only
      rw [hstatus, if_neg nofun]

structure Quiet (context : EmbedContext) (sites : List Site) (before after : Expansion) :
    Prop where
  warnings : after.warnings = before.warnings
  settled : forall site, site ∈ sites -> site.Settled context after.ledger

mutual

theorem quiet_expandNode (h : Site.Agree context sites) {node : Node}
    (hnode : forall site, site ∈ node.outermost -> site ∈ sites) {before : Expansion}
    (hsettled : forall site, site ∈ sites -> site.Settled context before.ledger) :
    Quiet context sites before (expandNode context node before).2 := by
  cases node with
  | element tag children position =>
      rw [expandNode]
      by_cases hname : tag.name = Directive.elementName
      · have hsite := hnode ⟨tag, children, position⟩ (by simp [Node.outermost, hname])
        have hledger := (adds_expandDirective context ⟨tag, children, position⟩ before).right.ledger
        rw [if_pos hname]
        constructor
        case warnings => exact warnings_expandDirective (hsettled _ hsite)
        case settled =>
          intro site hmem
          rw [hledger]
          exact Site.Settled.observe h hmem hsite (hsettled site hmem)
      · rw [if_neg hname]
        refine quiet_expandNodes h (fun site hsite => ?_) hsettled
        exact hnode site (by simpa [Node.outermost, hname] using hsite)
  | _ =>
      rw [expandNode]
      · exact ⟨rfl, hsettled⟩
      · nofun

theorem quiet_expandNodes (h : Site.Agree context sites) {nodes : List Node}
    (hnodes : forall site, site ∈ outermostAll nodes -> site ∈ sites) {before : Expansion}
    (hsettled : forall site, site ∈ sites -> site.Settled context before.ledger) :
    Quiet context sites before (expandNodes context nodes before).2 := by
  cases nodes with
  | nil => exact ⟨rfl, hsettled⟩
  | cons node rest =>
      have hfirst := quiet_expandNode h (fun site hsite => hnodes site
        (List.mem_append_left _ hsite)) hsettled
      have hrest := quiet_expandNodes h (fun site hsite => hnodes site
        (List.mem_append_right _ hsite)) hfirst.settled
      rw [expandNodes]
      exact ⟨hrest.warnings.trans hfirst.warnings, hrest.settled⟩

end

end Expansion

/-!
# Directives of one document
-/

namespace Directive

variable {fs : FileSystem} {paths : List FilePath} {tag more : Tag} {directory : FilePath}
  {directive other : Directive}

/-- Of files that were loaded together, one path and its ranges give one content. -/
theorem Accepted.slices_eq_of_same
    (h : Accepted tag directory (Sources.preload fs paths) directive)
    (hother : Accepted more directory (Sources.preload fs paths) other)
    (hpath : directive.path = other.path) (hranges : directive.ranges = other.ranges) :
    directive.slices = other.slices := by
  obtain ⟨_, htext⟩ := Sources.textAt_of_find?_preload h.source
  obtain ⟨_, hshown⟩ := Sources.textAt_of_find?_preload hother.source
  have hsource : directive.source.path = other.source.path := hpath
  rw [hsource, hshown] at htext
  have hlines : directive.source.lines = other.source.lines :=
    congrArg Text.lines (Except.ok.inj htext).symm
  unfold slices effectiveRanges coveringRanges slice SourceText.lineCount
  rw [hranges, hlines]

end Directive

namespace EmbedContext

def Tells (context : EmbedContext) (sites : List Site) : Prop :=
  forall site, site ∈ sites -> forall other, other ∈ sites -> forall directive shown,
    site.directive? context = some directive -> other.directive? context = some shown ->
    directive.identity = shown.identity ->
    EmbedIdentity.bytes directive.path directive.ranges =
      EmbedIdentity.bytes shown.path shown.ranges

theorem tells_singleton (context : EmbedContext) (site : Site) : Tells context [site] := by
  intro first hfirst second hsecond directive shown hdirective hshown _
  rw [List.mem_singleton.mp hfirst] at hdirective
  rw [List.mem_singleton.mp hsecond, hdirective] at hshown
  rw [Option.some.inj hshown]

theorem Tells.agree {fs : FileSystem} {paths : List FilePath} {directory : FilePath}
    {lines : List (List Char)} {sites : List Site}
    (h : Tells ⟨directory, lines, Sources.preload fs paths⟩ sites) :
    Site.Agree ⟨directory, lines, Sources.preload fs paths⟩ sites := by
  have haccepted : forall (site : Site) directive,
      site.directive? ⟨directory, lines, Sources.preload fs paths⟩ = some directive ->
        Directive.Accepted site.tag directory (Sources.preload fs paths) directive := by
    intro site directive hdirective
    have hsighted : Sighting.directive? ⟨_, site⟩ = some directive := hdirective
    exact Directive.accepted_of_ofTag (Sighting.ofTag_of_directive? hsighted)
  intro site hsite other hother directive shown hdirective hshown hidentity
  obtain ⟨hpath, hranges⟩ := EmbedIdentity.bytes_inj.mp
    (h site hsite other hother directive shown hdirective hshown hidentity)
  have hsame : directive.path = shown.path := congrArg FilePath.mk hpath
  rw [(haccepted site directive hdirective).slices_eq_of_same (haccepted other shown hshown) hsame
    hranges]

end EmbedContext
end LessonPress

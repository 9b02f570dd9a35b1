import LessonPress.Proofs.Embed.History
import LessonPress.Proofs.Embed.Streams

/-!
# Reported changes

## When a directive gets a warning in front of its code blocks

Directives are expanded one after the other, over any number of documents, with one ledger
for all of them.  As the streams tell everything apart, a warning tells of a change of the
text under the same path and the same ranges.  The one change without a warning is the one
that undoes a change with a warning.
-/

namespace LessonPress

open Node (outermostAll diagnosticsIn)

structure Sighting where
  context : EmbedContext
  site : Site

structure Sighted where
  directive : Directive
  nodes : List Node

namespace Sighting

def directive? (sighting : Sighting) : Option Directive :=
  sighting.site.directive? sighting.context

def expand (ledger : DriftLedger) (sighting : Sighting) : List Node × DriftLedger :=
  let result := Expansion.expandDirective sighting.context sighting.site.tag
    sighting.site.position (.start ledger)
  (result.1, result.2.ledger)

def expandEach (ledger : DriftLedger) : List Sighting -> List (List Node) × DriftLedger
  | [] => ([], ledger)
  | sighting :: rest =>
      let (nodes, next) := sighting.expand ledger
      let (others, last) := expandEach next rest
      (nodes :: others, last)

def sighted (sightings : List Sighting) (pieces : List (List Node)) : List Sighted :=
  (sightings.zip pieces).filterMap fun (sighting, nodes) =>
    sighting.directive?.map fun directive => ⟨directive, nodes⟩

def log (sightings : List Sighting) : List Sighted :=
  sighted sightings (expandEach .empty sightings).1

/-- The hash tells the streams of the valid directives apart. -/
def Telling (sightings : List Sighting) : Prop :=
  forall first, first ∈ sightings.filterMap directive? ->
    forall second, second ∈ sightings.filterMap directive? ->
      (first.identity = second.identity ->
          EmbedIdentity.bytes first.path first.ranges =
            EmbedIdentity.bytes second.path second.ranges) ∧
        (EmbedIdentity.ofSlices first.slices = EmbedIdentity.ofSlices second.slices ->
          EmbedIdentity.contentBytes first.slices = EmbedIdentity.contentBytes second.slices)

end Sighting

namespace Sighted

def reported (sighted : Sighted) : Bool :=
  (diagnosticsIn sighted.nodes).any fun content => content.severity == .warning

def sameEmbed (sighted : Sighted) (directive : Directive) : Bool :=
  sighted.directive.path.text == directive.path.text && sighted.directive.ranges == directive.ranges

theorem sameEmbed_iff {directive : Directive} {sighted : Sighted} :
    sighted.sameEmbed directive = true <->
      sighted.directive.path.text = directive.path.text ∧
        sighted.directive.ranges = directive.ranges := by
  simp [sameEmbed]

def earlier (directive : Directive) (log : List Sighted) : List Sighted :=
  log.filter fun sighted => sighted.sameEmbed directive

def Changed (past : List Sighted) (directive : Directive) : Prop :=
  exists last, past.getLast? = some last ∧ last.directive.slices ≠ directive.slices

/-- The slices are those from before the last change, and that change was reported. -/
def Undoes (past : List Sighted) (directive : Directive) : Prop :=
  exists front old new repeats, past = front ++ old :: new :: repeats ∧
    old.directive.slices = directive.slices ∧ new.directive.slices ≠ directive.slices ∧
      (forall other, other ∈ repeats -> other.directive.slices = new.directive.slices) ∧
        new.reported = true

def note (sighted : Sighted) : Observation where
  identity := sighted.directive.identity
  content := EmbedIdentity.ofSlices sighted.directive.slices
  status := if sighted.reported then .drifted else .unchanged

theorem status_note (sighted : Sighted) :
    sighted.note.status = .drifted <-> sighted.reported = true := by
  unfold note
  cases sighted.reported <;> simp

end Sighted

/-!
# Trees

The outermost directives of a document are expanded in its order.
-/

namespace Sighting

theorem expandEach_append (ledger : DriftLedger) (front rest : List Sighting) :
    expandEach ledger (front ++ rest) =
      ((expandEach ledger front).1 ++ (expandEach (expandEach ledger front).2 rest).1,
        (expandEach (expandEach ledger front).2 rest).2) := by
  induction front generalizing ledger with
  | nil => rfl
  | cons sighting others ih =>
      rw [List.cons_append, expandEach, expandEach]
      dsimp only
      rw [ih]
      rfl

theorem length_expandEach (ledger : DriftLedger) (sightings : List Sighting) :
    (expandEach ledger sightings).1.length = sightings.length := by
  induction sightings generalizing ledger with
  | nil => rfl
  | cons sighting rest ih =>
      rw [expandEach]
      dsimp only
      rw [List.length_cons, List.length_cons, ih]

end Sighting

namespace Expansion

open Sighting (expandEach)

/-- Of all that has been noted before, only the ledger matters to the nodes. -/
theorem expandDirective_start (context : EmbedContext) (tag : Tag) (position : Position)
    (before : Expansion) :
    (expandDirective context tag position before).1 =
        (expandDirective context tag position (.start before.ledger)).1 ∧
      (expandDirective context tag position before).2.ledger =
        (expandDirective context tag position (.start before.ledger)).2.ledger := by
  unfold expandDirective
  cases Directive.ofTag tag context.directory context.sources with
  | error faults => exact ⟨rfl, rfl⟩
  | ok directive => exact ⟨rfl, rfl⟩

structure Runs (context : EmbedContext) (nodes : List Node) (ledger : DriftLedger)
    (result : List Node × Expansion) : Prop where
  filled : Filled nodes (expandEach ledger ((outermostAll nodes).map (.mk context))).1 result.1
  ledger : (expandEach ledger ((outermostAll nodes).map (.mk context))).2 = result.2.ledger

theorem Runs.append {context : EmbedContext} {nodes others : List Node} {ledger : DriftLedger}
    {first second : List Node × Expansion} (h : Runs context nodes ledger first)
    (hothers : Runs context others first.2.ledger second) :
    Runs context (nodes ++ others) ledger (first.1 ++ second.1, second.2) where
  filled := by
    rw [Node.outermostAll_append, List.map_append, Sighting.expandEach_append, h.ledger]
    exact h.filled.append hothers.filled
  ledger := by
    rw [Node.outermostAll_append, List.map_append, Sighting.expandEach_append, h.ledger]
    exact hothers.ledger

mutual

theorem runs_expandNode (context : EmbedContext) (node : Node) (before : Expansion) :
    Runs context [node] before.ledger (expandNode context node before) := by
  cases node with
  | element tag children position =>
      rw [expandNode]
      by_cases hname : tag.name = Directive.elementName
      · obtain ⟨hnodes, hledger⟩ := expandDirective_start context tag position before
        have hsites : outermostAll [.element tag children position] =
            [⟨tag, children, position⟩] := by
          simp [Node.outermostAll, Node.outermost, hname]
        rw [if_pos hname]
        constructor
        case filled =>
          have hfilled := Filled.directive children position
            (expandDirective context tag position before).1 hname .nil
          rw [List.append_nil] at hfilled
          rw [hsites]
          simpa [expandEach, Sighting.expand, ← hnodes] using hfilled
        case ledger =>
          rw [hsites]
          exact hledger.symm
      · have hchildren := runs_expandNodes context children before
        have hsites : outermostAll [.element tag children position] = outermostAll children := by
          simp [Node.outermostAll, Node.outermost, hname]
        rw [if_neg hname]
        constructor
        case filled =>
          have hfilled := Filled.element position hname hchildren.filled .nil
          rw [List.append_nil] at hfilled
          rw [hsites]
          exact hfilled
        case ledger =>
          rw [hsites]
          exact hchildren.ledger
  | _ =>
      rw [expandNode]
      · exact ⟨.leaf rfl .nil, rfl⟩
      · nofun

theorem runs_expandNodes (context : EmbedContext) (nodes : List Node) (before : Expansion) :
    Runs context nodes before.ledger (expandNodes context nodes before) := by
  cases nodes with
  | nil => exact ⟨.nil, rfl⟩
  | cons node rest =>
      have hfirst := runs_expandNode context node before
      have hothers := runs_expandNodes context rest (expandNode context node before).2
      rw [expandNodes]
      exact hfirst.append hothers

end

end Expansion

/-!
# One directive
-/

namespace Sighting

variable {sighting : Sighting} {directive : Directive}

theorem ofTag_of_directive? (h : sighting.directive? = some directive) :
    Directive.ofTag sighting.site.tag sighting.context.directory sighting.context.sources =
      .ok directive := by
  unfold directive? Site.directive? at h
  cases htag : Directive.ofTag sighting.site.tag sighting.context.directory
      sighting.context.sources with
  | error faults =>
      rw [htag] at h
      cases h
  | ok found =>
      rw [htag] at h
      cases h
      rfl

theorem expand_of_none (h : sighting.directive? = none) (ledger : DriftLedger) :
    (sighting.expand ledger).2 = ledger := by
  unfold directive? Site.directive? at h
  unfold expand Expansion.expandDirective
  cases htag : Directive.ofTag sighting.site.tag sighting.context.directory
      sighting.context.sources with
  | error faults => rfl
  | ok found =>
      rw [htag] at h
      cases h

theorem expand_ledger (h : sighting.directive? = some directive) (ledger : DriftLedger) :
    (sighting.expand ledger).2 =
      (ledger.observe directive.identity (EmbedIdentity.ofSlices directive.slices)).2 := by
  unfold expand Expansion.expandDirective
  rw [ofTag_of_directive? h]
  rfl

theorem reported_iff (h : sighting.directive? = some directive) (ledger : DriftLedger) :
    (Sighted.mk directive (sighting.expand ledger).1).reported = true <->
      (ledger.observe directive.identity (EmbedIdentity.ofSlices directive.slices)).1 =
        .drifted := by
  have hcodes := Expansion.diagnosticsIn_codes (directive.codeBlock sighting.site.position)
    directive.effectiveRanges
  have hblocks : (directive.codeBlocks sighting.site.position).map Node.code =
      directive.effectiveRanges.map fun range =>
        .code (directive.codeBlock sighting.site.position range) :=
    List.map_map
  unfold expand Expansion.expandDirective
  rw [ofTag_of_directive? h]
  unfold Expansion.expandValid Sighted.reported
  dsimp only [Expansion.start]
  rw [hblocks]
  by_cases hdrifted : (ledger.observe directive.identity
      (EmbedIdentity.ofSlices directive.slices)).1 = .drifted
  · rw [if_pos hdrifted, Node.diagnosticsIn_cons]
    simp [Expansion.driftDiagnostic, hdrifted]
  · rw [if_neg hdrifted, hcodes]
    simp [hdrifted]

end Sighting

/-!
# The log and the ledger

Of what the ledger says of an observation, only drift has a say in what comes later.
-/

namespace DriftLedger

theorem lastChange_concat_status {past : List Observation} {note other : Observation}
    (hcontent : other.content = note.content)
    (hstatus : other.status = .drifted <-> note.status = .drifted) (before : ContentHash) :
    LastChange (past ++ [other]) before .drifted <->
      LastChange (past ++ [note]) before .drifted := by
  rcases List.eq_nil_or_concat past with rfl | ⟨earlier, last, rfl⟩
  · rw [List.nil_append, List.nil_append]
    constructor
    · intro h
      exact absurd h (not_lastChange_singleton _ _ _)
    · intro h
      exact absurd h (not_lastChange_singleton _ _ _)
  · have hlast : (earlier.concat last).getLast? = some last := by simp
    by_cases hsame : note.content = last.content
    · rw [lastChange_concat_repeated hlast (hcontent.trans hsame),
        lastChange_concat_repeated hlast hsame]
    · rw [lastChange_concat_changed hlast (hcontent ▸ hsame),
        lastChange_concat_changed hlast hsame, hstatus]

theorem Recorded.of_status {past : List Observation} {note other : Observation}
    {record : Option DriftRecord} (h : Recorded (past ++ [note]) record)
    (hcontent : other.content = note.content)
    (hstatus : other.status = .drifted <-> note.status = .drifted) :
    Recorded (past ++ [other]) record where
  exists_iff := by
    rw [h.exists_iff]
    simp
  last known hknown := by
    have hlast := h.last known hknown
    rw [repeats_iff List.getLast?_concat] at hlast ⊢
    exact hcontent.trans hlast
  baseline known before hknown := by
    rw [h.baseline known before hknown, lastChange_concat_status hcontent hstatus]
  differs := h.differs

end DriftLedger

namespace Sighting

open DriftLedger (Recorded Judged history)

theorem log_concat (sightings : List Sighting) (sighting : Sighting) :
    log (sightings ++ [sighting]) = log sightings ++
      (sighting.directive?.map fun directive =>
        Sighted.mk directive (sighting.expand (expandEach .empty sightings).2).1).toList := by
  have hlength := (length_expandEach .empty sightings).symm
  unfold log sighted
  rw [expandEach_append, List.zip_append hlength, List.filterMap_append]
  rfl

theorem ledger_concat (sightings : List Sighting) (sighting : Sighting) :
    (expandEach .empty (sightings ++ [sighting])).2 =
      (sighting.expand (expandEach .empty sightings).2).2 := by
  rw [expandEach_append]
  rfl

theorem mem_log {sightings : List Sighting} {sighted : Sighted} (h : sighted ∈ log sightings) :
    exists sighting, sighting ∈ sightings ∧ sighting.directive? = some sighted.directive := by
  obtain ⟨⟨sighting, nodes⟩, hpair, hsighted⟩ := List.mem_filterMap.mp h
  obtain ⟨directive, hdirective, rfl⟩ := Option.map_eq_some_iff.mp hsighted
  exact ⟨sighting, (List.of_mem_zip hpair).left, hdirective⟩

theorem recorded_log (sightings : List Sighting) (identity : ContentHash) :
    Recorded (history identity ((log sightings).map Sighted.note))
      ((expandEach .empty sightings).2.find? identity) := by
  induction sightings using List.reverseRecOn with
  | nil => exact ⟨by simp [log, sighted, expandEach, history], nofun, nofun, nofun⟩
  | append_singleton sightings sighting ih =>
      rw [log_concat, ledger_concat]
      cases hdirective : sighting.directive? with
      | none =>
          rw [expand_of_none hdirective, Option.map_none, Option.toList_none, List.append_nil]
          exact ih
      | some directive =>
          have hreported := reported_iff hdirective (expandEach .empty sightings).2
          rw [expand_ledger hdirective, Option.map_some, Option.toList_some, List.map_append,
            List.map_singleton]
          by_cases hidentity : directive.identity = identity
          · rw [← hidentity] at ih ⊢
            have hjudged := DriftLedger.judge_of_recorded ih directive.identity
              (EmbedIdentity.ofSlices directive.slices)
            have hhistory := DriftLedger.history_concat_self ((log sightings).map Sighted.note)
              (Sighted.note ⟨directive, (sighting.expand (expandEach .empty sightings).2).1⟩)
            rw [DriftLedger.find?_observe_self]
            refine hhistory.symm ▸ hjudged.right.of_status rfl ?_
            exact (Sighted.status_note _).trans hreported
          · rw [DriftLedger.find?_observe_of_ne _ _ (Ne.symm hidentity),
              DriftLedger.history_concat_of_ne _ hidentity]
            exact ih

theorem judged_log {sightings : List Sighting} {front rest : List Sighted} {sighted : Sighted}
    (h : log sightings = front ++ sighted :: rest) :
    exists status,
      Judged (history sighted.directive.identity (front.map Sighted.note))
          (EmbedIdentity.ofSlices sighted.directive.slices) status ∧
        (sighted.reported = true <-> status = .drifted) := by
  induction sightings using List.reverseRecOn generalizing rest with
  | nil => simp [log, Sighting.sighted, expandEach] at h
  | append_singleton sightings sighting ih =>
      rw [log_concat] at h
      cases hdirective : sighting.directive? with
      | none =>
          rw [hdirective, Option.map_none, Option.toList_none, List.append_nil] at h
          exact ih h
      | some directive =>
          rw [hdirective, Option.map_some, Option.toList_some] at h
          rcases List.eq_nil_or_concat rest with rfl | ⟨others, final, rfl⟩
          · rcases List.append_inj' h rfl with ⟨hfront, hsighted⟩
            rw [← hfront, ← List.singleton_inj.mp hsighted]
            refine ⟨_, (DriftLedger.judge_of_recorded (recorded_log sightings directive.identity)
              directive.identity _).left, reported_iff hdirective _⟩
          · rw [List.concat_eq_append, ← List.cons_append, ← List.append_assoc] at h
            exact ih (List.append_inj' h rfl).left

end Sighting

/-!
# Texts in the place of hashes
-/

namespace Sighted

open DriftLedger (history Changes LastChange)

def Distinct (all : List Directive) : Prop :=
  forall first, first ∈ all -> forall second, second ∈ all ->
    (EmbedIdentity.ofSlices first.slices = EmbedIdentity.ofSlices second.slices <->
      first.slices = second.slices)

section Transfer

variable {past : List Sighted} {directive : Directive}

theorem changes_iff (h : Distinct (directive :: past.map Sighted.directive)) :
    Changes (past.map note) (EmbedIdentity.ofSlices directive.slices) <->
      Changed past directive := by
  unfold Changes Changed
  rw [List.getLast?_map]
  cases hlast : past.getLast? with
  | none => simp
  | some last =>
      have hmem : last.directive ∈ past.map Sighted.directive :=
        List.mem_map_of_mem (List.mem_of_getLast? hlast)
      have hsame := h _ (List.mem_cons_of_mem _ hmem) _ List.mem_cons_self
      simp [note, hsame]

theorem lastChange_iff (h : Distinct (directive :: past.map Sighted.directive)) :
    LastChange (past.map note) (EmbedIdentity.ofSlices directive.slices) .drifted <->
      Undoes past directive := by
  have hmem : forall sighted, sighted ∈ past ->
      sighted.directive ∈ directive :: past.map Sighted.directive := by
    intro sighted hsighted
    exact List.mem_cons_of_mem _ (List.mem_map_of_mem hsighted)
  constructor
  · intro hchange
    rcases hchange with ⟨_, _, _, _, hpast, hold, hnew, hrepeats, hstatus⟩
    obtain ⟨front, others, rfl, rfl, hothers⟩ := List.map_eq_append_iff.mp hpast
    obtain ⟨old, more, rfl, rfl, hmore⟩ := List.map_eq_cons_iff.mp hothers
    obtain ⟨new, repeats, rfl, rfl, rfl⟩ := List.map_eq_cons_iff.mp hmore
    refine ⟨front, old, new, repeats, rfl, ?_, ?_, ?_, (status_note new).mp hstatus⟩
    · exact (h _ (hmem old (by simp)) _ List.mem_cons_self).mp hold
    · exact fun hsame => hnew ((h _ (hmem new (by simp)) _ List.mem_cons_self).mpr hsame)
    · intro other hother
      exact (h _ (hmem other (by simp [hother])) _ (hmem new (by simp))).mp
        (hrepeats other.note (List.mem_map_of_mem hother))
  · intro hundoes
    rcases hundoes with ⟨front, old, new, repeats, rfl, hold, hnew, hrepeats, hreported⟩
    refine ⟨front.map note, old.note, new.note, repeats.map note, by simp, ?_, ?_, ?_,
      (status_note new).mpr hreported⟩
    · exact (h _ (hmem old (by simp)) _ List.mem_cons_self).mpr hold
    · exact fun hsame => hnew ((h _ (hmem new (by simp)) _ List.mem_cons_self).mp hsame)
    · intro other hother
      obtain ⟨sighted, hsighted, rfl⟩ := List.mem_map.mp hother
      exact (h _ (hmem sighted (by simp [hsighted])) _ (hmem new (by simp))).mpr
        (hrepeats sighted hsighted)

end Transfer
end Sighted

namespace Sighting

open DriftLedger (history)

variable {sightings : List Sighting}

theorem exists_accepted {directive : Directive}
    (h : directive ∈ sightings.filterMap directive?) :
    exists tag directory sources, Directive.Accepted tag directory sources directive := by
  obtain ⟨sighting, _, hdirective⟩ := List.mem_filterMap.mp h
  exact ⟨_, _, _, Directive.accepted_of_ofTag (ofTag_of_directive? hdirective)⟩

theorem Telling.distinct (h : Telling sightings) {all : List Directive} {ranges : RangeList}
    (hall : forall directive, directive ∈ all ->
      directive ∈ sightings.filterMap directive? ∧ directive.ranges = ranges) :
    Sighted.Distinct all := by
  intro first hfirst second hsecond
  have hmem := (hall first hfirst).left
  have hmem' := (hall second hsecond).left
  have hranges := (hall first hfirst).right.trans (hall second hsecond).right.symm
  obtain ⟨_, _, _, haccepted⟩ := exists_accepted hmem
  obtain ⟨_, _, _, haccepted'⟩ := exists_accepted hmem'
  constructor
  · intro hhash
    exact (haccepted.contentBytes_inj haccepted' hranges).mp
      ((h first hmem second hmem').right hhash)
  · intro hslices
    rw [hslices]

theorem Telling.identity_iff (h : Telling sightings) {directive other : Directive}
    (hdirective : directive ∈ sightings.filterMap directive?)
    (hother : other ∈ sightings.filterMap directive?) :
    other.identity = directive.identity <->
      other.path.text = directive.path.text ∧ other.ranges = directive.ranges := by
  constructor
  · intro hhash
    exact EmbedIdentity.bytes_inj.mp ((h other hother directive hdirective).left hhash)
  · intro hsame
    have hbytes := EmbedIdentity.bytes_inj.mpr hsame
    exact congrArg ContentHash.of hbytes

theorem Telling.history_eq (h : Telling sightings) {past : List Sighted} {directive : Directive}
    (hpast : forall sighted, sighted ∈ past ->
      sighted.directive ∈ sightings.filterMap directive?)
    (hdirective : directive ∈ sightings.filterMap directive?) :
    history directive.identity (past.map Sighted.note) =
      (Sighted.earlier directive past).map Sighted.note := by
  unfold DriftLedger.history Sighted.earlier
  rw [List.filter_map]
  congr 1
  apply List.filter_congr
  intro sighted hsighted
  rw [Bool.eq_iff_iff, Sighted.sameEmbed_iff,
    ← h.identity_iff hdirective (hpast sighted hsighted)]
  exact decide_eq_true_iff

/-- The streams tell embeds and contents apart, the directives of a tree are expanded one
after the other, and a warning tells of a change of the text that is not undone by it. -/
structure TellsChanges (sightings : List Sighting) : Prop where
  identities : forall path other ranges more,
    EmbedIdentity.bytes path ranges = EmbedIdentity.bytes other more <->
      path.text = other.text ∧ ranges = more
  contents : forall tag directory sources directive more place loaded other,
    Directive.ofTag tag directory sources = .ok directive ->
      Directive.ofTag more place loaded = .ok other -> directive.ranges = other.ranges ->
        (EmbedIdentity.contentBytes directive.slices = EmbedIdentity.contentBytes other.slices <->
          directive.slices = other.slices)
  trees : forall context nodes before, Expansion.Runs context nodes before.ledger
    (Expansion.expandNodes context nodes before)
  reports : forall front sighted rest, log sightings = front ++ sighted :: rest ->
    (sighted.reported = true <->
      Sighted.Changed (Sighted.earlier sighted.directive front) sighted.directive ∧
        ¬ Sighted.Undoes (Sighted.earlier sighted.directive front) sighted.directive)

theorem tells_changes (sightings : List Sighting) (htelling : Telling sightings) :
    TellsChanges sightings := by
  constructor
  case identities =>
    intro path other ranges more
    exact EmbedIdentity.bytes_inj
  case contents =>
    intro tag directory sources directive more place loaded other h hother hranges
    exact (Directive.accepted_of_ofTag h).contentBytes_inj (Directive.accepted_of_ofTag hother)
      hranges
  case trees => exact Expansion.runs_expandNodes
  case reports =>
    intro front sighted rest hlog
    have hvalid : forall other, other ∈ log sightings ->
        other.directive ∈ sightings.filterMap directive? := by
      intro other hother
      obtain ⟨sighting, hsighting, hdirective⟩ := mem_log hother
      exact List.mem_filterMap.mpr ⟨sighting, hsighting, hdirective⟩
    have hown := hvalid sighted (by simp [hlog])
    have hfront : forall other, other ∈ front ->
        other.directive ∈ sightings.filterMap directive? :=
      fun other hother => hvalid other (by simp [hlog, hother])
    have hsame : forall directive, directive ∈ sighted.directive ::
          (Sighted.earlier sighted.directive front).map Sighted.directive ->
        directive ∈ sightings.filterMap directive? ∧
          directive.ranges = sighted.directive.ranges := by
      intro directive hdirective
      rcases List.mem_cons.mp hdirective with rfl | hearlier
      · exact ⟨hown, rfl⟩
      · obtain ⟨other, hother, rfl⟩ := List.mem_map.mp hearlier
        rcases List.mem_filter.mp hother with ⟨hmem, hembed⟩
        exact ⟨hfront other hmem, (Sighted.sameEmbed_iff.mp hembed).right⟩
    have hdistinct := htelling.distinct hsame
    obtain ⟨status, hjudged, hreported⟩ := judged_log hlog
    rw [htelling.history_eq hfront hown] at hjudged
    rw [hreported, hjudged.drifted, Sighted.changes_iff hdistinct,
      Sighted.lastChange_iff hdistinct]

def wholeTag : Tag where
  name := Directive.elementName
  attributes := [⟨"file", .string "b"⟩]
  selfClosing := true

def wholeSighting (text : String) : Sighting where
  context :=
    { directory := ⟨""⟩
      lines := []
      sources :=
        Sources.preload ((FileSystem.new [] ⟨0, 0⟩).put ["b"] (.file ⟨text.toUTF8, ⟨0, 0⟩⟩))
          [⟨"b"⟩] }
  site := ⟨wholeTag, [], ⟨1, 1⟩⟩

def backAndForth : List Sighting :=
  ["one\n", "two\n", "one\n"].map wholeSighting

theorem tells_changes_backAndForth : Telling backAndForth ∧ TellsChanges backAndForth := by
  have htelling : Telling backAndForth := by
    unfold Telling
    decide +kernel
  exact ⟨htelling, tells_changes backAndForth htelling⟩

/-- The way back is a change without a warning. -/
theorem unreported_backAndForth :
    exists front sighted, log backAndForth = front ++ [sighted] ∧
      Sighted.Changed (Sighted.earlier sighted.directive front) sighted.directive ∧
        sighted.reported = false := by
  have hvalues : ((log backAndForth).map fun sighted =>
      (sighted.directive.path.text, sighted.directive.ranges, sighted.directive.slices,
        sighted.reported)) =
      [("b", [], ["one".toList], false), ("b", [], ["two".toList], true),
        ("b", [], ["one".toList], false)] := by
    decide +kernel
  obtain ⟨first, others, hlog, hfirst, hothers⟩ := List.map_eq_cons_iff.mp hvalues
  obtain ⟨second, more, rfl, hsecond, hmore⟩ := List.map_eq_cons_iff.mp hothers
  obtain ⟨third, rest, rfl, hthird, hrest⟩ := List.map_eq_cons_iff.mp hmore
  have hnil : rest = [] := List.map_eq_nil_iff.mp hrest
  simp only [Prod.mk.injEq] at hfirst hsecond hthird
  refine ⟨[first, second], third, ?_, ⟨second, ?_, ?_⟩, hthird.right.right.right⟩
  · rw [hlog, hnil]
    rfl
  · simp [Sighted.earlier, Sighted.sameEmbed, hfirst, hsecond, hthird]
  · rw [hsecond.right.right.left, hthird.right.right.left]
    decide

end Sighting
end LessonPress

import LessonPress.Proofs.Embed.Validity

/-!
# Directives beside each other

## How far a directive is what it would be alone

All directives of a document share the files that have been loaded for it.  A file is kept
under the spelling by which it was asked for first, so a directive that spells the same path
in another way is given what that spelling gives: its faults, its text, and its path for the
identity under which the content is observed.
-/

namespace LessonPress

open Node (outermostAll)

/-- What becomes of a directive, apart from warnings: its code blocks and the identity under
which their content is observed, or the messages of its faults. -/
inductive Outcome where
  | shown (blocks : List CodeBlock) (identity : ContentHash)
  | refused (messages : List String)
deriving DecidableEq, Inhabited

namespace Outcome

def identity? : Outcome -> Option ContentHash
  | shown _ identity => some identity
  | refused _ => none

inductive Shows : Outcome -> List Node -> Prop where
  | shown (blocks : List CodeBlock) (identity : ContentHash) :
      Shows (shown blocks identity) (blocks.map Node.code)
  | drifted (blocks : List CodeBlock) (identity : ContentHash) (message : String) :
      Shows (shown blocks identity) (Expansion.driftDiagnostic message :: blocks.map Node.code)
  | refused (messages : List String) (title : String) (excerpt : Option SourceExcerpt) :
      Shows (refused messages) [.diagnostic ⟨.error, title, messages, excerpt⟩]

end Outcome

namespace Site

def outcome (directory : FilePath) (sources : Sources) (site : Site) : Outcome :=
  match Directive.ofTag site.tag directory sources with
  | .ok directive => .shown (directive.codeBlocks site.position) directive.identity
  | .error faults => .refused (faults.map DirectiveFault.message)

def outcomeIn (fs : FileSystem) (directory : FilePath) (document : Document) (site : Site) :
    Outcome :=
  site.outcome directory (Sources.preload fs (Directive.requestedPaths document directory))

def alone (site : Site) : Document :=
  ⟨.empty, [.element site.tag [] site.position]⟩

def identityAt (path : FilePath) (site : Site) : ContentHash :=
  EmbedIdentity.of path (Directive.readRanges site.tag "range").1

/-- Nothing in the document comes between a directive and its file: the spelling by which
the document asks for the file first gives the same text or the same reason for none as that
of the directive, and, if the directive is valid, the same identity. -/
def Undisturbed (fs : FileSystem) (directory : FilePath) (document : Document)
    (site : Site) : Prop :=
  forall file first, Directive.readFile site.tag = .ok file ->
    Directive.firstSpelling document directory (Directive.resolve directory file) = some first ->
    fs.textAt first = fs.textAt (Directive.resolve directory file) ∧
      ((site.outcomeIn fs directory site.alone).identity?.isSome = true ->
        site.identityAt first = site.identityAt (Directive.resolve directory file))

/-!
# What the expansion makes of outcomes
-/

variable {context : EmbedContext} {site : Site}

theorem shows_of_replaces {nodes : List Node} (h : Replaces context site nodes) :
    (site.outcome context.directory context.sources).Shows nodes := by
  have hcodes : forall directive : Directive,
      (directive.effectiveRanges.map fun range =>
        Node.code (directive.codeBlock site.position range)) =
          (directive.codeBlocks site.position).map Node.code :=
    fun directive => List.map_map.symm
  unfold outcome
  cases h with
  | refused htag =>
      rw [htag]
      exact .refused _ _ _
  | shown htag =>
      rw [htag, hcodes]
      exact .shown _ _
  | drifted htag =>
      rw [htag, hcodes]
      exact .drifted _ _ _

theorem isSome_observe (ledger : DriftLedger) (identity : ContentHash) :
    ((site.observe context ledger).find? identity).isSome = true <->
      (ledger.find? identity).isSome = true ∨
        (site.outcome context.directory context.sources).identity? = some identity := by
  unfold observe directive? outcome
  cases Directive.ofTag site.tag context.directory context.sources with
  | error faults => simp [Except.toOption, Outcome.identity?]
  | ok directive =>
      dsimp only [Except.toOption, Outcome.identity?, DriftLedger.observe]
      by_cases hidentity : identity = directive.identity
      · rw [hidentity, Table.find?_insert_self]
        simp
      · rw [Table.find?_insert_of_ne _ _ hidentity]
        simp [Ne.symm hidentity]

theorem isSome_foldl_observe (sites : List Site) (ledger : DriftLedger)
    (identity : ContentHash) :
    ((sites.foldl (observe context) ledger).find? identity).isSome = true <->
      (ledger.find? identity).isSome = true ∨ exists site, site ∈ sites ∧
        (site.outcome context.directory context.sources).identity? = some identity := by
  induction sites generalizing ledger with
  | nil => simp
  | cons first rest ih =>
      rw [List.foldl_cons, ih, isSome_observe]
      simp [or_assoc]

end Site

/-!
# Faults and what they say
-/

namespace DirectiveFault

theorem message_ne_unreadable {fault : DirectiveFault} (h : fault.isFileAccess = false)
    (file reason : String) : fault.message ≠ (unreadable file reason).message := by
  intro heq
  have hunreadable : (unreadable file reason).message.toList.take 3 = ['u', 'n', 'a'] := by
    change ("unable to read \"" ++ file ++ "\": " ++ reason).toList.take 3 = _
    simp only [String.toList_append, String.reduceToList]
    rfl
  have hstart := (congrArg (fun text => text.toList.take 3) heq).trans hunreadable
  cases fault with
  | unreadable => cases h
  | unknownAttribute name =>
      change ("unknown attribute `" ++ name ++ "`").toList.take 3 = _ at hstart
      simp [String.toList_append] at hstart
  | repeatedAttribute name =>
      change ("attribute `" ++ name ++ "` given more than once").toList.take 3 = _ at hstart
      simp [String.toList_append] at hstart
  | notAString name =>
      change ("attribute `" ++ name ++ "` must be a string literal").toList.take 3 = _ at hstart
      simp [String.toList_append] at hstart
  | missingFile =>
      change "missing required attribute `file`".toList.take 3 = _ at hstart
      simp at hstart
  | badRange name fault =>
      change ("invalid `" ++ name ++ "`: " ++ fault.message).toList.take 3 = _ at hstart
      simp [String.toList_append] at hstart
  | notABoolean name text =>
      change ("attribute `" ++ name ++ "` must be true or false, got \"" ++ text ++
        "\"").toList.take 3 = _ at hstart
      simp [String.toList_append] at hstart
  | unknownButton text =>
      change ("unknown button \"" ++ text ++ _).toList.take 3 = _ at hstart
      simp [String.toList_append] at hstart
  | uncoveredHighlight highlight ranges =>
      change ("highlight " ++ highlight.displayString ++ " is not inside " ++
        describeRanges ranges).toList.take 3 = _ at hstart
      simp [String.toList_append] at hstart

theorem message_unreadable_inj {file reason other : String}
    (h : (unreadable file reason).message = (unreadable file other).message) :
    reason = other := by
  change "unable to read \"" ++ file ++ "\": " ++ reason =
    "unable to read \"" ++ file ++ "\": " ++ other at h
  exact (String.append_right_inj _).mp h

end DirectiveFault

namespace Directive

theorem codeBlocks_congr (tag : Tag) (file : String) (source other : SourceText)
    (htext : source.text = other.text) (hpath : source.path.same other.path = true)
    (position : Position) :
    (make tag file source).codeBlocks position = (make tag file other).codeBlocks position := by
  have hlines : source.lines = other.lines := congrArg Text.lines htext
  have hlanguage : Excerpt.languageOf source.path = Excerpt.languageOf other.path := by
    unfold Excerpt.languageOf
    rw [FilePath.extension_of_same hpath]
  have hranges :
      (make tag file source).effectiveRanges = (make tag file other).effectiveRanges := by
    unfold effectiveRanges coveringRanges SourceText.lineCount make
    dsimp only
    rw [hlines]
  unfold codeBlocks
  rw [hranges]
  apply List.map_congr_left
  intro range _
  unfold codeBlock path slice make
  dsimp only
  rw [hlines, hlanguage]
  rfl

end Directive

/-!
# Two ways to a file
-/

namespace Site

open Directive (readFile resolve nameFaults valueFaults faultsIn make firstSpelling)

def seen (site : Site) (file : String) : Except String (FilePath × List Char) -> Outcome
  | .error reason =>
      .refused ((nameFaults site.tag ++ .unreadable file reason :: valueFaults site.tag).map
        DirectiveFault.message)
  | .ok (path, text) =>
      let source : SourceText := ⟨path, text, .absent path⟩
      if faultsIn site.tag source = [] then
        .shown ((make site.tag file source).codeBlocks site.position) (site.identityAt path)
      else
        .refused ((faultsIn site.tag source).map DirectiveFault.message)

variable {fs : FileSystem} {directory : FilePath} {document : Document} {site : Site}
  {file : String}

theorem outcome_eq_seen (hfile : readFile site.tag = .ok file) (sources : Sources) :
    site.outcome directory sources = site.seen file (sources.view (resolve directory file)) := by
  unfold outcome seen
  cases hview : sources.view (resolve directory file) with
  | error reason => rw [Directive.ofTag_unreadable hfile (Sources.get_of_view_error hview)]
  | ok found =>
      rcases found with ⟨path, text⟩
      obtain ⟨tracked, hget⟩ := Sources.get_of_view_ok hview
      have hfaults : faultsIn site.tag ⟨path, text, tracked⟩ =
          faultsIn site.tag ⟨path, text, .absent path⟩ := Directive.faultsIn_congr _ rfl
      rw [Directive.ofTag_readable hfile hget, hfaults]
      dsimp only
      by_cases hnone : faultsIn site.tag ⟨path, text, .absent path⟩ = []
      · rw [if_pos hnone, if_pos hnone]
        rfl
      · rw [if_neg hnone, if_neg hnone]

theorem outcome_unnamed {fault : DirectiveFault} (h : readFile site.tag = .error fault)
    (sources others : Sources) :
    site.outcome directory sources = site.outcome directory others := by
  unfold outcome
  rw [Directive.ofTag_unnamed h, Directive.ofTag_unnamed h]

theorem outcomeIn_eq_seen (fs : FileSystem) (hfile : readFile site.tag = .ok file)
    {first : FilePath}
    (hfirst : firstSpelling document directory (resolve directory file) = some first) :
    site.outcomeIn fs directory document =
      site.seen file ((fs.textAt first).map fun text => (first, text)) := by
  unfold outcomeIn
  rw [outcome_eq_seen hfile, Directive.view_requested fs hfirst]

theorem firstSpelling_alone (directory : FilePath) (hname : site.tag.name = Directive.elementName)
    (hfile : readFile site.tag = .ok file) :
    firstSpelling site.alone directory (resolve directory file) =
      some (resolve directory file) := by
  have hrequested : Directive.requestedPath directory (.element site.tag [] site.position) =
      some (resolve directory file) :=
    Directive.requestedPath_site ⟨site.tag, [], site.position⟩ hname hfile
  unfold firstSpelling alone
  rw [Node.walkAll, Node.walk, List.cons_append, List.filterMap_cons_some hrequested]
  exact List.find?_cons_of_pos (FilePath.same_refl _)

theorem seen_error_ne_seen_ok (site : Site) (file reason : String) (found : FilePath × List Char) :
    site.seen file (.error reason) ≠ site.seen file (.ok found) := by
  intro h
  unfold seen at h
  dsimp only at h
  split at h
  · cases h
  · have hmessages := Outcome.refused.inj h
    unfold faultsIn at hmessages
    rw [List.append_assoc, List.map_append, List.map_append, List.append_cancel_left_eq,
      List.map_cons] at hmessages
    have hmem : (DirectiveFault.unreadable file reason).message ∈
        (valueFaults site.tag ++ Directive.rangeFaults (Directive.readRanges site.tag "range").1
          (Directive.readRanges site.tag "highlight").1
          ⟨found.1, found.2, .absent found.1⟩).map DirectiveFault.message := by
      rw [← hmessages]
      exact List.mem_cons_self
    obtain ⟨fault, hfault, hmessage⟩ := List.mem_map.mp hmem
    refine DirectiveFault.message_ne_unreadable ?_ file reason hmessage
    cases List.mem_append.mp hfault with
    | inl hvalue => exact Directive.isFileAccess_valueFaults hvalue
    | inr hrange => exact Directive.isFileAccess_rangeFaults hrange

theorem seen_error_inj {reason other : String}
    (h : site.seen file (.error reason) = site.seen file (.error other)) : reason = other := by
  have hmessages := Outcome.refused.inj h
  rw [List.map_append, List.map_append, List.append_cancel_left_eq, List.map_cons,
    List.map_cons] at hmessages
  exact DirectiveFault.message_unreadable_inj (List.cons.inj hmessages).left

/-- With one text at both paths, only the identity can differ. -/
theorem seen_ok_iff {first path : FilePath} (hsame : first.same path = true) (text : List Char) :
    site.seen file (.ok (first, text)) = site.seen file (.ok (path, text)) <->
      ((site.seen file (.ok (path, text))).identity?.isSome = true ->
        site.identityAt first = site.identityAt path) := by
  have hfaults : faultsIn site.tag ⟨first, text, .absent first⟩ =
      faultsIn site.tag ⟨path, text, .absent path⟩ := Directive.faultsIn_congr _ rfl
  have hblocks := Directive.codeBlocks_congr site.tag file ⟨first, text, .absent first⟩
    ⟨path, text, .absent path⟩ rfl hsame site.position
  unfold seen
  dsimp only
  rw [hfaults, hblocks]
  by_cases hnone : faultsIn site.tag ⟨path, text, .absent path⟩ = []
  · simp [if_pos hnone, Outcome.identity?]
  · simp [if_neg hnone, Outcome.identity?]

theorem seen_textAt_iff (fs : FileSystem) {first path : FilePath}
    (hsame : first.same path = true) :
    site.seen file ((fs.textAt first).map fun text => (first, text)) =
        site.seen file ((fs.textAt path).map fun text => (path, text)) <->
      fs.textAt first = fs.textAt path ∧
        ((site.seen file ((fs.textAt path).map fun text => (path, text))).identity?.isSome = true ->
          site.identityAt first = site.identityAt path) := by
  cases hfirst : fs.textAt first with
  | error reason =>
      cases hpath : fs.textAt path with
      | error other =>
          constructor
          · intro h
            exact ⟨congrArg Except.error (seen_error_inj h), nofun⟩
          · intro h
            rw [Except.error.inj h.left]
            rfl
      | ok text =>
          constructor
          · intro h
            exact absurd h (seen_error_ne_seen_ok site file reason (path, text))
          · intro h
            cases h.left
  | ok text =>
      cases hpath : fs.textAt path with
      | error reason =>
          constructor
          · intro h
            exact absurd h.symm (seen_error_ne_seen_ok site file reason (first, text))
          · intro h
            cases h.left
      | ok other =>
          rw [FileSystem.textAt_of_same hsame hfirst hpath]
          exact (seen_ok_iff hsame other).trans (and_iff_right rfl).symm

end Site

/-!
# Documents with several directives
-/

open Site (identityAt)

/-- How the directives of a document come out when it is expanded with nothing known of
earlier content, and what each would be in a document of its own. -/
structure Outcomes (fs : FileSystem) (directory : FilePath) (document : Document)
    (result : List Node × Expansion) : Prop where
  shown : exists made : List Replacement,
    made.map Replacement.site = outermostAll document.children ∧
      Filled document.children (made.map Replacement.nodes) result.1 ∧
      forall replacement, replacement ∈ made ->
        (replacement.site.outcomeIn fs directory document).Shows replacement.nodes
  observed : forall identity, (result.2.ledger.find? identity).isSome = true <->
    exists site, site ∈ outermostAll document.children ∧
      (site.outcomeIn fs directory document).identity? = some identity
  alone : forall site, site ∈ outermostAll document.children -> forall file identity,
    Directive.readFile site.tag = .ok file ->
    (site.outcomeIn fs directory site.alone).identity? = some identity ->
    identity = site.identityAt (Directive.resolve directory file)
  independent : forall site, site ∈ outermostAll document.children ->
    (site.outcomeIn fs directory document = site.outcomeIn fs directory site.alone <->
      site.Undisturbed fs directory document)

namespace Site

variable {fs : FileSystem} {directory : FilePath} {document : Document} {site : Site}

theorem identity_seen {file : String} {path : FilePath} {found : Except String (List Char)}
    {identity : ContentHash}
    (h : (site.seen file (found.map fun text => (path, text))).identity? = some identity) :
    identity = site.identityAt path := by
  cases found with
  | error reason => cases h
  | ok text =>
      change (site.seen file (.ok (path, text))).identity? = some identity at h
      unfold seen at h
      dsimp only at h
      split at h
      · exact (Option.some.inj h).symm
      · cases h

theorem outcomeIn_alone_iff (fs : FileSystem) (directory : FilePath)
    (hsite : site ∈ outermostAll document.children) :
    site.outcomeIn fs directory document = site.outcomeIn fs directory site.alone <->
      site.Undisturbed fs directory document := by
  have hname := (Node.mem_walkAll_of_outermostAll hsite).right
  unfold Undisturbed
  cases hfile : Directive.readFile site.tag with
  | error fault =>
      constructor
      · intro _
        nofun
      · intro _
        exact outcome_unnamed hfile _ _
  | ok file =>
      obtain ⟨first, hfirst, hsame⟩ := Directive.firstSpelling_isSome directory hsite hfile
      have halone := firstSpelling_alone directory hname hfile
      rw [outcomeIn_eq_seen fs hfile hfirst, outcomeIn_eq_seen fs hfile halone,
        seen_textAt_iff fs hsame]
      constructor
      · rintro h other spelling ⟨⟩ hspelling
        rw [hfirst] at hspelling
        cases hspelling
        exact h
      · intro h
        exact h file first rfl hfirst

end Site

/-- A directive comes out as if there were no other one exactly if nothing in the document
comes between it and its file. -/
theorem Expansion.outcomes_expandNodes (fs : FileSystem) (directory : FilePath)
    (document : Document) (lines : List (List Char)) :
    Outcomes fs directory document
      (expandNodes
        ⟨directory, lines, Sources.preload fs (Directive.requestedPaths document directory)⟩
        document.children (.start .empty)) := by
  let context : EmbedContext :=
    ⟨directory, lines, Sources.preload fs (Directive.requestedPaths document directory)⟩
  obtain ⟨made, hmakes⟩ := makes_expandNodes context document.children (.start .empty)
  constructor
  case shown =>
    refine ⟨made, hmakes.sites, hmakes.filled, ?_⟩
    intro replacement hmem
    have hshows := Site.shows_of_replaces (hmakes.replaces replacement hmem)
    exact hshows
  case observed =>
    intro identity
    have hempty : ¬ ((start .empty).ledger.find? identity).isSome = true := by
      unfold start
      rw [Table.find?_empty]
      exact Bool.false_ne_true
    rw [hmakes.adds.ledger, hmakes.sites, Site.isSome_foldl_observe]
    exact or_iff_right hempty
  case alone =>
    intro site hsite file identity hfile hidentity
    have hname := (Node.mem_walkAll_of_outermostAll hsite).right
    rw [Site.outcomeIn_eq_seen fs hfile (Site.firstSpelling_alone directory hname hfile)]
      at hidentity
    exact Site.identity_seen hidentity
  case independent =>
    intro site hsite
    exact Site.outcomeIn_alone_iff fs directory hsite

namespace Site

def slashPage : String :=
  "<EmbeddedFile file=\"b/\" />\n\n<EmbeddedFile file=\"b\" />\n"

def slashFiles : FileSystem :=
  (FileSystem.new [] ⟨0, 0⟩).put ["b"] (.file ⟨"one\n".toUTF8, ⟨0, 0⟩⟩)

theorem slashPage_outcomes : exists document first second,
    Document.parse slashPage = .ok document ∧
      outermostAll document.children = [first, second] ∧
      first.outcomeIn slashFiles ⟨""⟩ document = first.outcomeIn slashFiles ⟨""⟩ first.alone ∧
      (second.outcomeIn slashFiles ⟨""⟩ document).identity?.isSome = false ∧
      (second.outcomeIn slashFiles ⟨""⟩ second.alone).identity?.isSome = true := by
  have hcheck : ((Document.parse slashPage).map fun document =>
      (outermostAll document.children).map fun site =>
        (decide (site.outcomeIn slashFiles ⟨""⟩ document =
            site.outcomeIn slashFiles ⟨""⟩ site.alone),
          (site.outcomeIn slashFiles ⟨""⟩ document).identity?.isSome,
          (site.outcomeIn slashFiles ⟨""⟩ site.alone).identity?.isSome)).toOption =
      some [(true, false, false), (false, false, true)] := by
    decide +kernel
  cases hparse : Document.parse slashPage with
  | error cause =>
      rw [hparse] at hcheck
      cases hcheck
  | ok document =>
      rw [hparse] at hcheck
      obtain ⟨first, others, hsites, hfirst, hothers⟩ :=
        List.map_eq_cons_iff.mp (Option.some.inj hcheck)
      obtain ⟨second, none, rfl, hsecond, hnone⟩ := List.map_eq_cons_iff.mp hothers
      obtain rfl := List.map_eq_nil_iff.mp hnone
      simp only [Prod.mk.injEq, decide_eq_true_eq] at hfirst hsecond
      exact ⟨document, first, second, rfl, hsites, hfirst.left, hsecond.right.left,
        hsecond.right.right⟩

end Site

theorem Expansion.outcomes_expandNodes_slash : exists document first second,
    Document.parse Site.slashPage = .ok document ∧
      outermostAll document.children = [first, second] ∧
      first.Undisturbed Site.slashFiles ⟨""⟩ document ∧
      ¬ second.Undisturbed Site.slashFiles ⟨""⟩ document := by
  obtain ⟨document, first, second, hparse, hsites, hfirst, hrefused, hshown⟩ :=
    Site.slashPage_outcomes
  have houtcomes := outcomes_expandNodes Site.slashFiles ⟨""⟩ document []
  refine ⟨document, first, second, hparse, hsites, ?_, ?_⟩
  · refine (houtcomes.independent first ?_).mp hfirst
    rw [hsites]
    exact List.mem_cons_self
  · intro hundisturbed
    have hsecond : second ∈ outermostAll document.children := by
      rw [hsites]
      exact List.mem_cons_of_mem _ List.mem_cons_self
    rw [(houtcomes.independent second hsecond).mpr hundisturbed, hshown] at hrefused
    cases hrefused

/-- A directive that is valid when it is the only one can be refused beside another one. -/
theorem Site.outcomeIn_ne_alone : exists document site,
    Document.parse slashPage = .ok document ∧ site ∈ outermostAll document.children ∧
      site.outcomeIn slashFiles ⟨""⟩ document ≠ site.outcomeIn slashFiles ⟨""⟩ site.alone := by
  obtain ⟨document, first, second, hparse, hsites, _, hrefused, hshown⟩ := slashPage_outcomes
  refine ⟨document, second, hparse, ?_, ?_⟩
  · rw [hsites]
    exact List.mem_cons_of_mem _ List.mem_cons_self
  · intro heq
    rw [heq, hshown] at hrefused
    cases hrefused

end LessonPress

import LessonPress.Embed.Expansion
import LessonPress.Proofs.Document.Blocks

/-!
# Replacing directives

## What stands in the place of each directive, and what is noted of it

The outermost directives of a tree give way to their nodes one after the other, and all else
stays where it is.  The lists that are filled on the way tell of the same nodes in the same
order.
-/

namespace LessonPress

/-- A directive that is inside no other one. -/
structure Site where
  tag : Tag
  children : List Node
  position : Position
deriving Inhabited

namespace Node

mutual

def outermost : Node -> List Site
  | element tag children position =>
      if tag.name = Directive.elementName then [⟨tag, children, position⟩]
      else outermostAll children
  | _ => []

def outermostAll : List Node -> List Site
  | [] => []
  | node :: rest => node.outermost ++ outermostAll rest

end

def isDirective : Node -> Bool
  | element tag _ _ => tag.name == Directive.elementName
  | _ => false

def isElement : Node -> Bool
  | element _ _ _ => true
  | _ => false

def diagnostic? : Node -> Option Diagnostic
  | diagnostic content => some content
  | _ => none

theorem isDirective_of_not_isElement {node : Node} (h : node.isElement = false) :
    node.isDirective = false := by
  cases node with
  | element => cases h
  | _ => rfl

theorem outermostAll_append (nodes others : List Node) :
    outermostAll (nodes ++ others) = outermostAll nodes ++ outermostAll others := by
  induction nodes with
  | nil => rfl
  | cons node rest ih => simp [outermostAll, ih]

theorem walkAll_append (nodes others : List Node) :
    walkAll (nodes ++ others) = walkAll nodes ++ walkAll others := by
  induction nodes with
  | nil => rfl
  | cons node rest ih => simp [walkAll, ih]

theorem walkAll_flat {nodes : List Node} (h : forall node, node ∈ nodes ->
    node.isElement = false) : walkAll nodes = nodes := by
  induction nodes with
  | nil => rfl
  | cons node rest ih =>
      have hrest := ih fun other hother => h other (List.mem_cons_of_mem _ hother)
      have hleaf := h node List.mem_cons_self
      cases node with
      | element => cases hleaf
      | _ => simp [walkAll, walk, hrest]

def diagnosticsIn (nodes : List Node) : List Diagnostic :=
  (walkAll nodes).filterMap diagnostic?

theorem diagnosticsIn_append (nodes others : List Node) :
    diagnosticsIn (nodes ++ others) = diagnosticsIn nodes ++ diagnosticsIn others := by
  unfold diagnosticsIn
  rw [walkAll_append, List.filterMap_append]

theorem diagnosticsIn_cons (node : Node) (rest : List Node) :
    diagnosticsIn (node :: rest) = diagnosticsIn [node] ++ diagnosticsIn rest :=
  diagnosticsIn_append [node] rest

@[simp] theorem diagnosticsIn_diagnostic (content : Diagnostic) :
    diagnosticsIn [.diagnostic content] = [content] := by
  rfl

theorem diagnosticsIn_element (tag : Tag) (children : List Node) (position : Position) :
    diagnosticsIn [.element tag children position] = diagnosticsIn children := by
  unfold diagnosticsIn
  rw [walkAll, walk, walkAll, List.append_nil]
  rfl

end Node

/-!
# Trees with other nodes in the place of directives
-/

open Node (outermostAll diagnosticsIn)

/-- A tree in which every outermost directive has given way to a list of nodes; the lists
stand in the order of the document. -/
inductive Filled : List Node -> List (List Node) -> List Node -> Prop where
  | nil : Filled [] [] []
  | directive {tag : Tag} (children : List Node) (position : Position) (piece : List Node)
      {rest filled : List Node} {pieces : List (List Node)} :
      tag.name = Directive.elementName -> Filled rest pieces filled ->
      Filled (.element tag children position :: rest) (piece :: pieces) (piece ++ filled)
  | element {tag : Tag} (position : Position) {children rest inner filled : List Node}
      {pieces others : List (List Node)} : tag.name ≠ Directive.elementName ->
      Filled children pieces inner -> Filled rest others filled ->
      Filled (.element tag children position :: rest) (pieces ++ others)
        (.element tag inner position :: filled)
  | leaf {node : Node} {rest filled : List Node} {pieces : List (List Node)} :
      node.isElement = false -> Filled rest pieces filled ->
      Filled (node :: rest) pieces (node :: filled)

namespace Filled

variable {nodes filled : List Node} {pieces : List (List Node)}

theorem append {others more : List Node} {later : List (List Node)}
    (h : Filled nodes pieces filled) (hothers : Filled others later more) :
    Filled (nodes ++ others) (pieces ++ later) (filled ++ more) := by
  induction h with
  | nil => exact hothers
  | directive children position piece hname _ ih =>
      rw [List.append_assoc]
      exact .directive children position piece hname ih
  | element position hname hchildren _ _ ih =>
      rw [List.append_assoc]
      exact .element position hname hchildren ih
  | leaf hleaf _ ih => exact .leaf hleaf ih

theorem not_isDirective (h : Filled nodes pieces filled)
    (hpieces : forall piece, piece ∈ pieces -> forall node, node ∈ piece ->
      node.isElement = false) :
    forall node, node ∈ Node.walkAll filled -> node.isDirective = false := by
  induction h with
  | nil => nofun
  | @directive tag children position piece rest filled pieces hname _ ih =>
      have hflat := hpieces piece List.mem_cons_self
      intro node hnode
      rw [Node.walkAll_append, Node.walkAll_flat hflat, List.mem_append] at hnode
      cases hnode with
      | inl hown => exact Node.isDirective_of_not_isElement (hflat node hown)
      | inr hlater =>
          exact ih (fun other hother => hpieces other (List.mem_cons_of_mem _ hother)) node hlater
  | @element tag position children rest inner filled pieces others hname _ _ ihchildren ihrest =>
      intro node hnode
      rw [Node.walkAll, Node.walk, List.cons_append, List.mem_cons, List.mem_append] at hnode
      rcases hnode with rfl | hinner | hlater
      · simpa [Node.isDirective] using hname
      · exact ihchildren (fun piece hpiece => hpieces piece (List.mem_append_left _ hpiece)) node
          hinner
      · exact ihrest (fun piece hpiece => hpieces piece (List.mem_append_right _ hpiece)) node
          hlater
  | @leaf first rest filled pieces hleaf _ ih =>
      have hflat : forall node, node ∈ [first] -> node.isElement = false := by
        intro node hnode
        rw [List.mem_singleton.mp hnode]
        exact hleaf
      intro node hnode
      rw [← List.singleton_append, Node.walkAll_append, Node.walkAll_flat hflat,
        List.mem_append] at hnode
      cases hnode with
      | inl hown => exact Node.isDirective_of_not_isElement (hflat node hown)
      | inr hlater => exact ih hpieces node hlater

theorem diagnosticsIn_eq (h : Filled nodes pieces filled) (hnone : diagnosticsIn nodes = []) :
    diagnosticsIn filled = pieces.flatMap diagnosticsIn := by
  induction h with
  | nil => rfl
  | directive children position piece hname _ ih =>
      rw [Node.diagnosticsIn_cons, List.append_eq_nil_iff] at hnone
      rw [Node.diagnosticsIn_append, ih hnone.right, List.flatMap_cons]
  | element position hname _ _ ihchildren ihrest =>
      rw [Node.diagnosticsIn_cons, List.append_eq_nil_iff, Node.diagnosticsIn_element] at hnone
      rw [Node.diagnosticsIn_cons, Node.diagnosticsIn_element, ihchildren hnone.left,
        ihrest hnone.right, List.flatMap_append]
  | leaf hleaf _ ih =>
      rw [Node.diagnosticsIn_cons, List.append_eq_nil_iff] at hnone
      rw [Node.diagnosticsIn_cons, hnone.left, ih hnone.right, List.nil_append]

theorem findSome?_titleText (h : Filled nodes pieces filled)
    (hpieces : forall piece, piece ∈ pieces -> piece.findSome? Node.titleText = none) :
    filled.findSome? Node.titleText = nodes.findSome? Node.titleText := by
  induction h with
  | nil => rfl
  | directive children position piece hname _ ih =>
      have hpiece := hpieces piece List.mem_cons_self
      have hrest := ih fun other hother => hpieces other (List.mem_cons_of_mem _ hother)
      rw [List.findSome?_append, hpiece, hrest]
      rfl
  | element position hname _ _ _ ih =>
      exact ih fun piece hpiece => hpieces piece (List.mem_append_right _ hpiece)
  | leaf _ _ ih =>
      rw [List.findSome?_cons, List.findSome?_cons, ih hpieces]

end Filled

/-!
# The nodes of a directive
-/

structure Replacement where
  site : Site
  nodes : List Node
deriving Inhabited

/-- The nodes that may stand in the place of a directive: one diagnostic with its faults, or
one code block for each range that it shows, after at most one warning. -/
inductive Replaces (context : EmbedContext) (site : Site) : List Node -> Prop where
  | refused {faults : List DirectiveFault} :
      Directive.ofTag site.tag context.directory context.sources = .error faults ->
      Replaces context site
        [.diagnostic
          { severity := .error
            title := "Invalid <" ++ Directive.elementName ++ ">"
            messages := faults.map DirectiveFault.message
            excerpt := some (Expansion.sourceExcerpt context.lines site.position) }]
  | shown {directive : Directive} :
      Directive.ofTag site.tag context.directory context.sources = .ok directive ->
      Replaces context site
        (directive.effectiveRanges.map fun range =>
          .code (directive.codeBlock site.position range))
  | drifted {directive : Directive} :
      Directive.ofTag site.tag context.directory context.sources = .ok directive ->
      Replaces context site
        (Expansion.driftDiagnostic directive.driftMessage ::
          directive.effectiveRanges.map fun range =>
            .code (directive.codeBlock site.position range))

namespace Replaces

variable {context : EmbedContext} {site : Site} {nodes : List Node}

theorem flat (h : Replaces context site nodes) :
    forall node, node ∈ nodes -> node.isElement = false := by
  intro node hnode
  cases h with
  | refused _ =>
      rw [List.mem_singleton.mp hnode]
      rfl
  | shown _ =>
      obtain ⟨range, _, rfl⟩ := List.mem_map.mp hnode
      rfl
  | drifted _ =>
      cases List.mem_cons.mp hnode with
      | inl heq =>
          rw [heq]
          rfl
      | inr hcode =>
          obtain ⟨range, _, rfl⟩ := List.mem_map.mp hcode
          rfl

theorem untitled (h : Replaces context site nodes) : nodes.findSome? Node.titleText = none := by
  cases h with
  | refused _ => rfl
  | shown _ => simp [List.findSome?_eq_none_iff, Node.titleText]
  | drifted _ =>
      simp [List.findSome?_eq_none_iff, Node.titleText, Expansion.driftDiagnostic]

end Replaces

namespace Site

def directive? (context : EmbedContext) (site : Site) : Option Directive :=
  (Directive.ofTag site.tag context.directory context.sources).toOption

def showing (context : EmbedContext) (file : String) (sites : List Site) : List Directive :=
  (sites.filterMap (directive? context)).filter fun directive => directive.file == file

def observe (context : EmbedContext) (ledger : DriftLedger) (site : Site) : DriftLedger :=
  match site.directive? context with
  | some directive =>
      (ledger.observe directive.identity (EmbedIdentity.ofSlices directive.slices)).2
  | none => ledger

end Site

namespace Replacement

def diagnostics (severity : Severity) (made : Replacement) : List Diagnostic :=
  (diagnosticsIn made.nodes).filter fun content => content.severity == severity

def messages (severity : Severity) (made : Replacement) : List String :=
  (made.diagnostics severity).flatMap fun content =>
    content.messages.map (Expansion.onLine made.site.position.startLine)

def markers (made : Replacement) : List InvalidEmbed :=
  (made.diagnostics .error).map fun content =>
    ⟨made.site.position.startLine, Expansion.fileAttribute made.site.tag, content.messages⟩

end Replacement

def rangesAfter (earlier : Option (List String)) (shown : List Directive) :
    Option (List String) :=
  if shown.isEmpty then earlier
  else
    some (earlier.getD [] ++ shown.flatMap fun directive =>
      directive.effectiveRanges.map LineRange.displayString)

theorem rangesAfter_append (earlier : Option (List String)) (shown later : List Directive) :
    rangesAfter (rangesAfter earlier shown) later = rangesAfter earlier (shown ++ later) := by
  cases shown with
  | nil => rfl
  | cons directive rest =>
      cases later with
      | nil => simp [rangesAfter]
      | cons next more => simp [rangesAfter]

namespace Expansion

structure Adds (context : EmbedContext) (made : List Replacement)
    (before after : Expansion) : Prop where
  errors : after.errors = before.errors ++ made.flatMap (Replacement.messages .error)
  warnings : after.warnings = before.warnings ++ made.flatMap (Replacement.messages .warning)
  invalid : after.embedded.invalid = before.embedded.invalid ++ made.flatMap Replacement.markers
  files : forall file, after.embedded.files.find? file =
    rangesAfter (before.embedded.files.find? file)
      (Site.showing context file (made.map Replacement.site))
  count : after.count + after.embedded.invalid.length =
    before.count + before.embedded.invalid.length + made.length
  ledger : after.ledger = (made.map Replacement.site).foldl (Site.observe context) before.ledger

namespace Adds

variable {context : EmbedContext} {made others : List Replacement}
  {before middle after : Expansion}

theorem nil (expansion : Expansion) : Adds context [] expansion expansion where
  errors := (List.append_nil _).symm
  warnings := (List.append_nil _).symm
  invalid := (List.append_nil _).symm
  files _ := rfl
  count := rfl
  ledger := rfl

theorem append (h : Adds context made before middle) (hothers : Adds context others middle after) :
    Adds context (made ++ others) before after where
  errors := by rw [hothers.errors, h.errors, List.append_assoc, List.flatMap_append]
  warnings := by rw [hothers.warnings, h.warnings, List.append_assoc, List.flatMap_append]
  invalid := by rw [hothers.invalid, h.invalid, List.append_assoc, List.flatMap_append]
  files file := by
    rw [hothers.files, h.files, rangesAfter_append]
    simp [Site.showing]
  count := by
    rw [hothers.count, h.count, List.length_append]
    omega
  ledger := by rw [hothers.ledger, h.ledger, List.map_append, List.foldl_append]

end Adds

theorem find?_addRanges (embedded : EmbeddedFiles) (directive : Directive) (file : String) :
    (embedded.addRanges directive.file
        (directive.effectiveRanges.map LineRange.displayString)).files.find? file =
      rangesAfter (embedded.files.find? file)
        ([directive].filter fun directive => directive.file == file) := by
  unfold EmbeddedFiles.addRanges
  dsimp only
  rw [SortedMap.find?_insert]
  by_cases hfile : directive.file = file
  · simp [rangesAfter, hfile]
  · simp [rangesAfter, hfile]

theorem diagnosticsIn_codes {alpha : Type} (block : alpha -> CodeBlock) (ranges : List alpha) :
    diagnosticsIn (ranges.map fun range => .code (block range)) = [] := by
  unfold diagnosticsIn
  rw [Node.walkAll_flat]
  · simp [List.filterMap_eq_nil_iff, Node.diagnostic?]
  · intro node hnode
    obtain ⟨range, _, rfl⟩ := List.mem_map.mp hnode
    rfl

section Directives

variable (context : EmbedContext) (site : Site) (before : Expansion)

theorem adds_expandInvalid {faults : List DirectiveFault}
    (htag : Directive.ofTag site.tag context.directory context.sources = .error faults) :
    Replaces context site (expandInvalid context site.tag site.position faults before).1 ∧
      Adds context
        [⟨site, (expandInvalid context site.tag site.position faults before).1⟩] before
        (expandInvalid context site.tag site.position faults before).2 := by
  have hinvalid : site.directive? context = none := by
    unfold Site.directive?
    rw [htag]
    rfl
  refine ⟨.refused htag, ?_⟩
  constructor
  case errors => simp [expandInvalid, Replacement.messages, Replacement.diagnostics]
  case warnings => simp [expandInvalid, Replacement.messages, Replacement.diagnostics]
  case invalid => simp [expandInvalid, Replacement.markers, Replacement.diagnostics]
  case files =>
    intro file
    simp [expandInvalid, Site.showing, hinvalid, rangesAfter]
  case count =>
    simp [expandInvalid]
    omega
  case ledger => simp [expandInvalid, Site.observe, hinvalid]

theorem adds_valid {directive : Directive} (hvalid : site.directive? context = some directive)
    (nodes : List Node) (warned : List String)
    (hnodes : diagnosticsIn nodes =
      warned.map fun message => ⟨.warning, "Embedded file changed", [message], none⟩) :
    Adds context [⟨site, nodes⟩] before
      { before with
        embedded := before.embedded.addRanges directive.file
          (directive.effectiveRanges.map LineRange.displayString)
        warnings := before.warnings ++ warned.map (onLine site.position.startLine)
        count := before.count + 1
        ledger := (before.ledger.observe directive.identity
          (EmbedIdentity.ofSlices directive.slices)).2 } := by
  have herrors : (Replacement.mk site nodes).diagnostics .error = [] := by
    simp [Replacement.diagnostics, hnodes]
  have hwarnings : (Replacement.mk site nodes).diagnostics .warning = diagnosticsIn nodes := by
    apply List.filter_eq_self.mpr
    simp [hnodes]
  constructor
  case errors => simp [Replacement.messages, herrors]
  case warnings =>
    have hmessages : (Replacement.mk site nodes).messages .warning =
        warned.map (onLine site.position.startLine) := by
      unfold Replacement.messages
      rw [hwarnings, hnodes, List.flatMap_map, List.map_eq_flatMap]
      rfl
    simp [hmessages]
  case invalid => simp [Replacement.markers, herrors, EmbeddedFiles.addRanges]
  case files =>
    intro file
    rw [find?_addRanges]
    simp [Site.showing, hvalid]
  case count =>
    simp [EmbeddedFiles.addRanges]
    omega
  case ledger => simp [Site.observe, hvalid]

theorem adds_expandValid {directive : Directive}
    (htag : Directive.ofTag site.tag context.directory context.sources = .ok directive) :
    Replaces context site (expandValid directive site.position before).1 ∧
      Adds context [⟨site, (expandValid directive site.position before).1⟩] before
        (expandValid directive site.position before).2 := by
  have hvalid : site.directive? context = some directive := by
    unfold Site.directive?
    rw [htag]
    rfl
  have hblocks : (directive.codeBlocks site.position).map Node.code =
      directive.effectiveRanges.map fun range => .code (directive.codeBlock site.position range) :=
    List.map_map
  have hcodes := diagnosticsIn_codes (directive.codeBlock site.position) directive.effectiveRanges
  unfold expandValid
  rw [hblocks]
  cases hobserved : before.ledger.observe directive.identity
      (EmbedIdentity.ofSlices directive.slices) with
  | mk status ledger =>
      dsimp only
      have hledger : ledger = (before.ledger.observe directive.identity
          (EmbedIdentity.ofSlices directive.slices)).2 := by
        rw [hobserved]
      by_cases hdrifted : status = .drifted
      · rw [if_pos hdrifted, if_pos hdrifted, hledger]
        refine ⟨.drifted htag, ?_⟩
        refine adds_valid context site before hvalid _ [directive.driftMessage] ?_
        rw [Node.diagnosticsIn_cons, hcodes]
        rfl
      · rw [if_neg hdrifted, if_neg hdrifted, hledger, ← List.append_nil before.warnings]
        refine ⟨.shown htag, ?_⟩
        exact adds_valid context site before hvalid _ [] hcodes

theorem adds_expandDirective :
    Replaces context site (expandDirective context site.tag site.position before).1 ∧
      Adds context [⟨site, (expandDirective context site.tag site.position before).1⟩] before
        (expandDirective context site.tag site.position before).2 := by
  unfold expandDirective
  cases htag : Directive.ofTag site.tag context.directory context.sources with
  | error faults => exact adds_expandInvalid context site before htag
  | ok directive => exact adds_expandValid context site before htag

end Directives

/-!
# The whole tree
-/

structure Makes (context : EmbedContext) (nodes : List Node) (before : Expansion)
    (result : List Node × Expansion) (made : List Replacement) : Prop where
  sites : made.map Replacement.site = outermostAll nodes
  replaces : forall replacement, replacement ∈ made ->
    Replaces context replacement.site replacement.nodes
  filled : Filled nodes (made.map Replacement.nodes) result.1
  adds : Adds context made before result.2

theorem Makes.append {context : EmbedContext} {nodes others : List Node} {before : Expansion}
    {first second : List Node × Expansion} {made later : List Replacement}
    (h : Makes context nodes before first made)
    (hothers : Makes context others first.2 second later) :
    Makes context (nodes ++ others) before (first.1 ++ second.1, second.2) (made ++ later) where
  sites := by rw [List.map_append, h.sites, hothers.sites, Node.outermostAll_append]
  replaces replacement hmem :=
    (List.mem_append.mp hmem).elim (h.replaces replacement) (hothers.replaces replacement)
  filled := by
    rw [List.map_append]
    exact h.filled.append hothers.filled
  adds := h.adds.append hothers.adds

mutual

theorem makes_expandNode (context : EmbedContext) (node : Node) (before : Expansion) :
    exists made, Makes context [node] before (expandNode context node before) made := by
  cases node with
  | element tag children position =>
      rw [expandNode]
      by_cases hname : tag.name = Directive.elementName
      · let site : Site := ⟨tag, children, position⟩
        obtain ⟨hreplaces, hadds⟩ := adds_expandDirective context site before
        rw [if_pos hname]
        refine ⟨[⟨site, (expandDirective context tag position before).1⟩], ?_⟩
        constructor
        case sites => simp [Node.outermostAll, Node.outermost, hname, site]
        case replaces =>
          intro replacement hmem
          rw [List.mem_singleton.mp hmem]
          exact hreplaces
        case filled =>
          have hfilled := Filled.directive children position
            (expandDirective context tag position before).1 hname .nil
          rw [List.append_nil] at hfilled
          exact hfilled
        case adds => exact hadds
      · obtain ⟨made, hmade⟩ := makes_expandNodes context children before
        rw [if_neg hname]
        refine ⟨made, ?_⟩
        constructor
        case sites => simp [Node.outermostAll, Node.outermost, hname, hmade.sites]
        case replaces => exact hmade.replaces
        case filled =>
          have hfilled := Filled.element position hname hmade.filled .nil
          rw [List.append_nil] at hfilled
          exact hfilled
        case adds => exact hmade.adds
  | _ =>
      rw [expandNode]
      · exact ⟨[], rfl, nofun, .leaf rfl .nil, .nil before⟩
      · nofun

theorem makes_expandNodes (context : EmbedContext) (nodes : List Node) (before : Expansion) :
    exists made, Makes context nodes before (expandNodes context nodes before) made := by
  cases nodes with
  | nil => exact ⟨[], rfl, nofun, .nil, .nil before⟩
  | cons node rest =>
      obtain ⟨first, hfirst⟩ := makes_expandNode context node before
      obtain ⟨others, hothers⟩ := makes_expandNodes context rest (expandNode context node before).2
      rw [expandNodes]
      exact ⟨first ++ others, hfirst.append hothers⟩

end

end Expansion

/-!
# Documents

A parsed document holds no diagnostics, so all of those in its expanded tree are from its
directives.
-/

theorem Parser.diagnosticsIn_of_parses {number : Nat} {block : List Text.Line}
    {nodes : List Node} (h : Parses number block nodes) : diagnosticsIn nodes = [] := by
  induction h with
  | nil => rfl
  | blank _ _ ih => exact ih
  | fence _ _ _ ih => exact ih
  | heading _ _ ih => exact ih
  | thematicBreak _ _ ih => exact ih
  | html _ _ ih => exact ih
  | text _ _ ih => exact ih
  | closedElement _ hextent _ ih =>
      rw [Node.diagnosticsIn_cons, Node.diagnosticsIn_element, ih]
      rcases children_of_readExtent hextent with rfl | ⟨text, position, rfl⟩ <;> rfl
  | openElement _ _ _ _ ihchildren ihmore =>
      rw [Node.diagnosticsIn_cons, Node.diagnosticsIn_element, ihchildren, ihmore]
      rfl

namespace Expansion

/-- The expanded tree of a document, and what is noted of it, in terms of the replacements in
the order of the document. -/
structure Accounts (context : EmbedContext) (document : Document)
    (result : List Node × Expansion) (made : List Replacement) : Prop where
  sites : made.map Replacement.site = outermostAll document.children
  replaces : forall replacement, replacement ∈ made ->
    Replaces context replacement.site replacement.nodes
  filled : Filled document.children (made.map Replacement.nodes) result.1
  noDirective : forall node, node ∈ Node.walkAll result.1 -> node.isDirective = false
  title : { document with children := result.1 }.title = document.title
  diagnostics : diagnosticsIn result.1 = made.flatMap fun replacement =>
    diagnosticsIn replacement.nodes
  errors : result.2.errors = made.flatMap (Replacement.messages .error)
  warnings : result.2.warnings = made.flatMap (Replacement.messages .warning)
  invalid : result.2.embedded.invalid = made.flatMap Replacement.markers
  files : forall file, result.2.embedded.files.find? file =
    rangesAfter none (Site.showing context file (outermostAll document.children))
  count : result.2.count + result.2.embedded.invalid.length =
    (outermostAll document.children).length

/-- The expansion of a parsed document replaces each outermost directive by its diagnostic or
by its code blocks, changes nothing else, and notes exactly what it has put there. -/
theorem accounts_expandNodes {source : String} {document : Document}
    (h : Document.parse source = .ok document) (context : EmbedContext) (ledger : DriftLedger) :
    exists made, Accounts context document
      (expandNodes context document.children (.start ledger)) made := by
  obtain ⟨made, hmakes⟩ := makes_expandNodes context document.children (.start ledger)
  have hpieces : forall piece, piece ∈ made.map Replacement.nodes ->
      exists site, Replaces context site piece := by
    intro piece hpiece
    obtain ⟨replacement, hmem, rfl⟩ := List.mem_map.mp hpiece
    exact ⟨replacement.site, hmakes.replaces replacement hmem⟩
  refine ⟨made, ?_⟩
  constructor
  case sites => exact hmakes.sites
  case replaces => exact hmakes.replaces
  case filled => exact hmakes.filled
  case noDirective =>
    refine hmakes.filled.not_isDirective fun piece hpiece => ?_
    obtain ⟨site, hreplaces⟩ := hpieces piece hpiece
    exact hreplaces.flat
  case title =>
    refine hmakes.filled.findSome?_titleText fun piece hpiece => ?_
    obtain ⟨site, hreplaces⟩ := hpieces piece hpiece
    exact hreplaces.untitled
  case diagnostics =>
    obtain ⟨count, _, hparses⟩ := Document.parse_eq_ok_iff.mp h
    rw [hmakes.filled.diagnosticsIn_eq (Parser.diagnosticsIn_of_parses hparses),
      List.flatMap_map]
  case errors => exact hmakes.adds.errors
  case warnings => exact hmakes.adds.warnings
  case invalid => exact hmakes.adds.invalid
  case files =>
    intro file
    rw [hmakes.adds.files file, hmakes.sites]
    rfl
  case count =>
    rw [hmakes.adds.count, ← hmakes.sites, List.length_map]
    exact Nat.zero_add _

def calloutPage : String :=
  "<Callout>\n<EmbeddedFile file=\"b\" />\n</Callout>\n\n<EmbeddedFile />\n"

def calloutContext : EmbedContext where
  directory := ⟨""⟩
  lines := Text.linesOf calloutPage
  sources :=
    Sources.preload
      ((FileSystem.new [] ⟨0, 0⟩).put ["b"] (.file ⟨"one\n".toUTF8, ⟨0, 0⟩⟩)) [⟨"b"⟩]

theorem accounts_expandNodes_callout :
    exists document made, Document.parse calloutPage = .ok document ∧ made.length = 2 ∧
      Accounts calloutContext document
        (expandNodes calloutContext document.children (.start .empty)) made := by
  have hsites : ((Document.parse calloutPage).map fun document =>
      (outermostAll document.children).length).toOption = some 2 := by
    decide +kernel
  cases hparse : Document.parse calloutPage with
  | error cause =>
      rw [hparse] at hsites
      cases hsites
  | ok document =>
      rw [hparse] at hsites
      obtain ⟨made, haccounts⟩ := accounts_expandNodes hparse calloutContext .empty
      refine ⟨document, made, rfl, ?_, haccounts⟩
      rw [← List.length_map Replacement.site, haccounts.sites]
      exact Option.some.inj hsites

end Expansion
end LessonPress

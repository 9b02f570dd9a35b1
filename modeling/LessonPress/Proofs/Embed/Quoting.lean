import LessonPress.Proofs.Document.Tiling
import LessonPress.Proofs.Embed.Validity

/-!
# Excerpts of invalid directives

## The lines of a document that a diagnostic shows

All elements of a parsed document stand on its lines, however deep they are.  So the lines of a
directive are among those that its diagnostic shows, and the context around them is cut only
where the document starts or ends.
-/

namespace LessonPress

open Text
open Node (outermostAll)

/-!
# Places of elements
-/

def AllPlaced (first last : Nat) (nodes : List Node) : Prop :=
  forall tag children position, .element tag children position ∈ Node.walkAll nodes ->
    first ≤ position.startLine ∧ position.startLine ≤ position.endLine ∧
      position.endLine ≤ last

namespace AllPlaced

variable {first last : Nat} {nodes : List Node}

theorem mono {lower upper : Nat} (h : AllPlaced first last nodes) (hfirst : lower ≤ first)
    (hlast : last ≤ upper) : AllPlaced lower upper nodes := by
  intro tag children position hmem
  obtain ⟨hstart, hspan, hend⟩ := h tag children position hmem
  exact ⟨Nat.le_trans hfirst hstart, hspan, Nat.le_trans hend hlast⟩

theorem cons {node : Node} (h : AllPlaced first last nodes)
    (hnode : forall tag children position, .element tag children position ∈ node.walk ->
      first ≤ position.startLine ∧ position.startLine ≤ position.endLine ∧
        position.endLine ≤ last) : AllPlaced first last (node :: nodes) := by
  intro tag children position hmem
  rw [Node.walkAll, List.mem_append] at hmem
  exact hmem.elim (hnode tag children position) (h tag children position)

end AllPlaced

theorem allPlaced_of_laid {number : Nat} {block : List Line} {nodes : List Node}
    (h : Parser.Laid number block nodes) :
    AllPlaced number (number + block.length - 1) nodes := by
  induction h with
  | nil => exact nofun
  | blank _ _ ih =>
      refine ih.mono (Nat.le_succ _) ?_
      rw [List.length_cons]
      omega
  | @leaf number block rest node goesOn more hleaf _ _ ih =>
      have hlast : number + block.length + rest.length - 1 ≤
          number + (block ++ rest).length - 1 := by
        rw [List.length_append]
        omega
      refine (ih.mono (Nat.le_add_right _ _) hlast).cons ?_
      intro tag children position hmem
      obtain ⟨first, tagLines, _, _, rfl, _, rfl, _⟩ := Document.element_of_leaf hleaf hmem
      simp only [List.length_append, List.length_cons]
      omega
  | @element number first closing tagLines interior rest tag text remainder children more _ _ _
      ihchildren ihmore =>
      have hlength : (first :: (tagLines ++ (interior ++ closing :: rest))).length =
          tagLines.length + interior.length + rest.length + 2 := by
        simp only [List.length_append, List.length_cons]
        omega
      rw [hlength]
      refine (ihmore.mono (by omega) (by omega)).cons ?_
      intro other below position hmem
      rw [Node.walk, List.mem_cons] at hmem
      cases hmem with
      | inl heq =>
          cases heq
          dsimp only
          omega
      | inr hbelow => exact ihchildren.mono (by omega) (by omega) other below position hbelow

theorem placed_of_parse {source : String} {document : Document}
    (h : Document.parse source = .ok document) {site : Site}
    (hsite : site ∈ outermostAll document.children) :
    1 ≤ site.position.startLine ∧ site.position.startLine ≤ site.position.endLine ∧
      site.position.endLine ≤ (linesOf source).length := by
  obtain ⟨count, hread, hlaid⟩ := Document.exists_laid h
  have hcount := Frontmatter.count_le_length hread
  have hplaced := allPlaced_of_laid hlaid
  rw [List.length_drop] at hplaced
  exact hplaced.mono (Nat.le_add_left _ _) (by omega) _ _ _
    (Node.mem_walkAll_of_outermostAll hsite).left

/-!
# Lines of an excerpt
-/

def SourceExcerpt.lines (excerpt : SourceExcerpt) : List Line :=
  splitAt '\n' excerpt.text.toList

/-- The excerpt shows the lines of a directive with two lines of context, as far as the
document has them. -/
structure Quotes (document : List Line) (position : Position) (excerpt : SourceExcerpt) :
    Prop where
  first : excerpt.startLine = max 1 (position.startLine - 2)
  text : excerpt.text.toList = joinLines
    ((document.take (min (position.endLine + 2) document.length)).drop (excerpt.startLine - 1))
  filled : excerpt.startLine ≤ min (position.endLine + 2) document.length
  last : excerpt.startLine + excerpt.lines.length = min (position.endLine + 2) document.length + 1
  directive : forall n, position.startLine ≤ n -> n ≤ position.endLine ->
    exists line, document[n - 1]? = some line ∧ excerpt.startLine ≤ n ∧
      excerpt.lines[n - excerpt.startLine]? = some line

namespace Expansion

/-- An excerpt is never left empty for want of lines. -/
theorem text_sourceExcerpt {document : List Line} {position : Position}
    (hstart : 1 ≤ position.startLine) (hspan : position.startLine ≤ position.endLine)
    (hend : position.endLine ≤ document.length) :
    (sourceExcerpt document position).text.toList = joinLines
      ((document.take (min (position.endLine + 2) document.length)).drop
        (max (position.startLine - 2) 1 - 1)) := by
  have hfilled : max (position.startLine - 2) 1 ≤ min (position.endLine + 2) document.length := by
    omega
  unfold sourceExcerpt contextLines
  dsimp only
  rw [if_pos hfilled, String.toList_ofList]

theorem lines_sourceExcerpt {document : List Line} (hlines : forall line, line ∈ document ->
    '\n' ∉ line) {position : Position} (hstart : 1 ≤ position.startLine)
    (hspan : position.startLine ≤ position.endLine) (hend : position.endLine ≤ document.length) :
    (sourceExcerpt document position).lines =
      (document.take (min (position.endLine + 2) document.length)).drop
        (max (position.startLine - 2) 1 - 1) := by
  unfold SourceExcerpt.lines
  rw [text_sourceExcerpt hstart hspan hend, joinLines_eq_joinWith]
  refine splitAt_joinWith (List.ne_nil_of_length_pos ?_) fun line hline => ?_
  · rw [List.length_drop, List.length_take]
    omega
  · exact hlines line (List.mem_of_mem_take (List.mem_of_mem_drop hline))

theorem quotes_sourceExcerpt {document : List Line} (hlines : forall line, line ∈ document ->
    '\n' ∉ line) {position : Position} (hstart : 1 ≤ position.startLine)
    (hspan : position.startLine ≤ position.endLine) (hend : position.endLine ≤ document.length) :
    Quotes document position (sourceExcerpt document position) := by
  have hshown := lines_sourceExcerpt hlines hstart hspan hend
  have hfirst : (sourceExcerpt document position).startLine =
      max (position.startLine - 2) 1 := rfl
  have hlength : (sourceExcerpt document position).lines.length =
      min (position.endLine + 2) document.length - (max (position.startLine - 2) 1 - 1) := by
    rw [hshown, List.length_drop, List.length_take]
    omega
  constructor
  case first => rw [hfirst, Nat.max_comm]
  case text => exact text_sourceExcerpt hstart hspan hend
  case filled =>
    rw [hfirst]
    omega
  case last =>
    rw [hlength, hfirst]
    omega
  case directive =>
    intro n hlower hupper
    have hn : n - 1 < document.length := by
      omega
    have hindex : max (position.startLine - 2) 1 - 1 + (n - max (position.startLine - 2) 1) =
        n - 1 := by
      omega
    refine ⟨document[n - 1], List.getElem?_eq_getElem hn, by omega, ?_⟩
    rw [hshown, hfirst, List.getElem?_drop, hindex, List.getElem?_take_of_lt (by omega)]
    exact List.getElem?_eq_getElem hn

theorem quotes_of_replaces {document : List Line} (hlines : forall line, line ∈ document ->
    '\n' ∉ line) {directory : FilePath} {sources : Sources} {site : Site} {nodes : List Node}
    (h : Replaces ⟨directory, document, sources⟩ site nodes) {faults : List DirectiveFault}
    (hfaults : Directive.ofTag site.tag directory sources = .error faults)
    (hplaced : 1 ≤ site.position.startLine ∧ site.position.startLine ≤ site.position.endLine ∧
      site.position.endLine ≤ document.length) :
    exists content excerpt, nodes = [.diagnostic content] ∧ content.severity = .error ∧
      content.messages = faults.map DirectiveFault.message ∧ content.excerpt = some excerpt ∧
      Quotes document site.position excerpt := by
  obtain ⟨hstart, hspan, hend⟩ := hplaced
  cases h with
  | refused htag =>
      cases hfaults.symm.trans htag
      exact ⟨_, _, rfl, rfl, rfl, rfl, quotes_sourceExcerpt hlines hstart hspan hend⟩
  | shown htag => cases hfaults.symm.trans htag
  | drifted htag => cases hfaults.symm.trans htag

/-- In the expansion of a parsed document every outermost directive that is invalid gives way to
a diagnostic that quotes it. -/
theorem diagnostics_quote {source : String} {document : Document}
    (h : Document.parse source = .ok document) (directory : FilePath) (sources : Sources)
    (ledger : DriftLedger) :
    exists made, Makes ⟨directory, linesOf source, sources⟩ document.children (.start ledger)
        (expandNodes ⟨directory, linesOf source, sources⟩ document.children (.start ledger)) made ∧
      forall replacement, replacement ∈ made -> forall faults,
        Directive.ofTag replacement.site.tag directory sources = .error faults ->
        exists content excerpt, replacement.nodes = [.diagnostic content] ∧
          content.severity = .error ∧ content.messages = faults.map DirectiveFault.message ∧
          content.excerpt = some excerpt ∧
          Quotes (linesOf source) replacement.site.position excerpt := by
  obtain ⟨made, hmakes⟩ := makes_expandNodes ⟨directory, linesOf source, sources⟩
    document.children (.start ledger)
  refine ⟨made, hmakes, fun replacement hmem faults hfaults => ?_⟩
  have hsite : replacement.site ∈ outermostAll document.children := by
    rw [← hmakes.sites]
    exact List.mem_map_of_mem hmem
  exact quotes_of_replaces (fun _ => feed_not_mem_of_mem_linesOf) (hmakes.replaces _ hmem) hfaults
    (placed_of_parse h hsite)

def unnamedPage : String :=
  "<Callout>\n<EmbeddedFile\n/>\n</Callout>\n\nEnd\n"

def unnamedTag : Tag :=
  ⟨Directive.elementName, [], true⟩

theorem diagnostics_quote_unnamed :
    exists (document : Document) (made : List Replacement) (content : Diagnostic)
        (excerpt : SourceExcerpt), Document.parse unnamedPage = .ok document ∧
      Makes ⟨⟨""⟩, linesOf unnamedPage, .empty⟩ document.children (.start .empty)
        (expandNodes ⟨⟨""⟩, linesOf unnamedPage, .empty⟩ document.children (.start .empty)) made ∧
      made.map Replacement.nodes = [[.diagnostic content]] ∧
      content.messages = ["missing required attribute `file`"] ∧
      content.excerpt = some excerpt ∧ Quotes (linesOf unnamedPage) ⟨2, 3⟩ excerpt := by
  have hsites : ((Document.parse unnamedPage).map fun document =>
      (outermostAll document.children).map fun site => (site.tag, site.position)).toOption =
        some [(unnamedTag, ⟨2, 3⟩)] := by
    decide +kernel
  have hfaults : Directive.ofTag unnamedTag ⟨""⟩ .empty = .error [.missingFile] := by
    rfl
  cases hparse : Document.parse unnamedPage with
  | error cause =>
      rw [hparse] at hsites
      cases hsites
  | ok document =>
      rw [hparse] at hsites
      obtain ⟨made, hmakes, hquotes⟩ := diagnostics_quote hparse ⟨""⟩ .empty .empty
      have hmade : made.map (fun replacement => (replacement.site.tag, replacement.site.position)) =
          [(unnamedTag, ⟨2, 3⟩)] := by
        rw [← Option.some.inj hsites]
        dsimp only
        rw [← hmakes.sites, List.map_map]
        rfl
      obtain ⟨replacement, rfl, hreplacement⟩ := List.map_eq_singleton_iff.mp hmade
      obtain ⟨htag, hposition⟩ := Prod.mk.inj hreplacement
      obtain ⟨content, excerpt, hnodes, _, hmessages, hexcerpt, hquoted⟩ :=
        hquotes replacement List.mem_cons_self [.missingFile] (htag ▸ hfaults)
      refine ⟨document, [replacement], content, excerpt, rfl, hmakes, ?_, hmessages, hexcerpt, ?_⟩
      · rw [List.map_singleton, hnodes]
      · rw [← hposition]
        exact hquoted

end Expansion
end LessonPress

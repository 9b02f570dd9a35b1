import LessonPress.Proofs.Document.Faults
import LessonPress.Proofs.Document.Locality

/-!
# Positions of a parsed document

## The nodes tile the lines

The top-level nodes stand one after the other, and every line that is not blank belongs to
exactly one of them.  The same is true of the lines between the two tags of an element and of
its children.
-/

namespace LessonPress

open Text

namespace Node

def position? : Node -> Option Position
  | heading _ _ position => some position
  | paragraph _ position => some position
  | html _ position => some position
  | thematicBreak position => some position
  | code block => block.position
  | element _ _ position => some position
  | diagnostic _ => none

def covers (n : Nat) (node : Node) : Bool :=
  match node.position? with
  | some position => position.startLine ≤ n && n ≤ position.endLine
  | none => false

end Node

namespace Document

structure Ordered (first last : Nat) (nodes : List Node) : Prop where
  placed : forall node, node ∈ nodes -> exists position, node.position? = some position ∧
    first ≤ position.startLine ∧ position.startLine ≤ position.endLine ∧ position.endLine ≤ last
  ascending : nodes.Pairwise fun node other => forall position next,
    node.position? = some position -> other.position? = some next ->
      position.endLine < next.startLine

/-- The nodes stand one after the other, and each line that is not blank belongs to one. -/
structure Tiled (document : List Line) (first last : Nat) (nodes : List Node) : Prop
    extends Ordered first last nodes where
  covered : forall n line, first ≤ n -> n ≤ last -> document[n - 1]? = some line ->
    isBlankLine line = false -> nodes.countP (Node.covers n) = 1

def TagAt (document : List Line) (tag : Tag) (startLine tagEnd : Nat) (remainder : List Char) :
    Prop :=
  startLine ≤ tagEnd ∧ exists first rest after, document.drop (startLine - 1) = first :: rest ∧
    Cursor.readTag ⟨(joinLines (trimStart first :: rest)).drop 1, startLine⟩ =
      .ok (tag, ⟨after, tagEnd⟩) ∧
    after.takeWhile (· != '\n') = remainder

/-- An element is closed on the last line of its tag, or on a line of its own below it.  Its
children stand behind the tag. -/
inductive Spanned (document : List Line) (tag : Tag) (children : List Node)
    (position : Position) : Prop where
  | inline {remainder : List Char} :
      TagAt document tag position.startLine position.endLine remainder ->
      tag.selfClosing = true ∨ endsWith (Parser.closingText tag.name) (trim remainder) = true ->
      Ordered position.endLine position.endLine children ->
      Spanned document tag children position
  | apart {tagEnd : Nat} {remainder : List Char} {closing : Line} :
      TagAt document tag position.startLine tagEnd remainder -> tag.selfClosing = false ->
      isBlankLine remainder = true -> tagEnd < position.endLine ->
      document[position.endLine - 1]? = some closing ->
      trim closing = Parser.closingText tag.name ->
      Tiled document (tagEnd + 1) (position.endLine - 1) children ->
      Spanned document tag children position

/-!
# Lists of nodes
-/

variable {document : List Line} {first last : Nat} {nodes : List Node}

theorem Ordered.nil (first last : Nat) : Ordered first last [] :=
  ⟨nofun, .nil⟩

theorem Ordered.singleton {node : Node} {position : Position}
    (hposition : node.position? = some position) (hfirst : first ≤ position.startLine)
    (hspan : position.startLine ≤ position.endLine) (hlast : position.endLine ≤ last) :
    Ordered first last [node] := by
  refine ⟨?_, List.pairwise_singleton _ _⟩
  intro other hother
  rw [List.mem_singleton.mp hother]
  exact ⟨position, hposition, hfirst, hspan, hlast⟩

theorem Tiled.nil (document : List Line) {first last : Nat} (h : last < first) :
    Tiled document first last [] := by
  refine ⟨.nil first last, ?_⟩
  intro n line hfirst hlast
  omega

theorem Tiled.blank {line : Line} (h : Tiled document (first + 1) last nodes)
    (hline : document[first - 1]? = some line) (hblank : isBlankLine line = true) :
    Tiled document first last nodes := by
  refine ⟨⟨?_, h.ascending⟩, ?_⟩
  · intro node hnode
    obtain ⟨position, hposition, hfirst, hspan⟩ := h.placed node hnode
    exact ⟨position, hposition, Nat.le_of_succ_le hfirst, hspan⟩
  · intro n other hfirst hlast hother hfilled
    have hne : n ≠ first := by
      rintro rfl
      rw [hline] at hother
      cases hother
      rw [hblank] at hfilled
      cases hfilled
    exact h.covered n other (by omega) hlast hother hfilled

theorem Ordered.countP_covers {n : Nat} (h : Ordered first last nodes) (hn : n < first) :
    nodes.countP (Node.covers n) = 0 := by
  rw [List.countP_eq_zero]
  intro node hnode
  obtain ⟨position, hposition, hfirst, _⟩ := h.placed node hnode
  unfold Node.covers
  rw [hposition]
  have hnot : ¬ position.startLine ≤ n := by
    omega
  simp [hnot]

theorem Tiled.cons {node : Node} {middle : Nat} (h : Tiled document (middle + 1) last nodes)
    (hposition : node.position? = some ⟨first, middle⟩) (hfirst : first ≤ middle)
    (hlast : middle ≤ last) : Tiled document first last (node :: nodes) := by
  refine ⟨⟨?_, List.pairwise_cons.mpr ⟨?_, h.ascending⟩⟩, ?_⟩
  · intro other hother
    cases List.mem_cons.mp hother with
    | inl heq =>
        rw [heq]
        exact ⟨⟨first, middle⟩, hposition, Nat.le_refl first, hfirst, hlast⟩
    | inr hmem =>
        obtain ⟨position, hplace, hbehind, hspan⟩ := h.placed other hmem
        exact ⟨position, hplace, by omega, hspan⟩
  · intro other hother position next hplace hnext
    obtain ⟨found, hfound, hbehind, _⟩ := h.placed other hother
    rw [hposition] at hplace
    rw [hnext] at hfound
    cases hplace
    cases hfound
    exact hbehind
  · intro n line hstart hend hline hfilled
    rw [List.countP_cons]
    unfold Node.covers
    rw [hposition]
    by_cases hn : n ≤ middle
    · have hothers := h.countP_covers (Nat.lt_succ_of_le hn)
      unfold Node.covers at hothers
      rw [hothers]
      simp [hstart, hn]
    · have hothers := h.covered n line (by omega) hend hline hfilled
      unfold Node.covers at hothers
      rw [hothers]
      simp [hn]

/-!
# Blocks and elements
-/

def AllSpanned (document : List Line) (nodes : List Node) : Prop :=
  forall tag children position, .element tag children position ∈ Node.walkAll nodes ->
    Spanned document tag children position

theorem AllSpanned.cons {node : Node}
    (hnode : forall tag children position, .element tag children position ∈ node.walk ->
      Spanned document tag children position) (h : AllSpanned document nodes) :
    AllSpanned document (node :: nodes) := by
  intro tag children position hmem
  rw [Node.walkAll, List.mem_append] at hmem
  cases hmem with
  | inl hfirst => exact hnode tag children position hfirst
  | inr hrest => exact h tag children position hrest

theorem position_of_leaf {number : Nat} {block : List Line} {node : Node} {goesOn : Line -> Bool}
    (h : Parser.Leaf number block node goesOn) :
    exists first body, block = first :: body ∧
      node.position? = some ⟨number, number + body.length⟩ := by
  cases h with
  | @fence fence first last body _ _ _ =>
      refine ⟨first, body ++ [last], rfl, ?_⟩
      rw [List.length_append]
      rfl
  | @heading first => exact ⟨first, [], rfl, rfl⟩
  | @thematicBreak first => exact ⟨first, [], rfl, rfl⟩
  | @html first body => exact ⟨first, body, rfl, rfl⟩
  | @text first body => exact ⟨first, body, rfl, rfl⟩
  | @element first tagLines => exact ⟨first, tagLines, rfl, rfl⟩

theorem inlineChildren_cases (text : List Char) (line : Nat) :
    Parser.inlineChildren text line = [] ∨ exists shown,
      Parser.inlineChildren text line = [.paragraph shown (.line line)] := by
  unfold Parser.inlineChildren
  split
  · exact Or.inl rfl
  · exact Or.inr ⟨_, rfl⟩

theorem inline_children {tag : Tag} {remainder : List Char} {line : Nat} {children : List Node}
    (h : Parser.Inline tag remainder line children) :
    (tag.selfClosing = true ∨ endsWith (Parser.closingText tag.name) (trim remainder) = true) ∧
      (children = [] ∨ exists shown, children = [.paragraph shown (.line line)]) := by
  cases h with
  | selfClosing hclosing _ => exact ⟨Or.inl hclosing, Or.inl rfl⟩
  | @closed inner _ hinner =>
      refine ⟨Or.inr ?_, inlineChildren_cases inner line⟩
      unfold stripEnding at hinner
      split at hinner
      · assumption
      · cases hinner

theorem tagAt_of_opening {number : Nat} {line : Line} {tagLines : List Line} {tag : Tag}
    {text remainder : List Char} (h : Parser.Opening line tagLines tag text remainder)
    (hstands : Parser.StandsAt document number (line :: tagLines)) :
    TagAt document tag number (number + tagLines.length) remainder := by
  obtain ⟨after, hafter⟩ := hstands.exists_drop
  obtain ⟨behind, hread, hbehind⟩ := h.readTag after number
  exact ⟨Nat.le_add_right _ _, line, tagLines ++ after, behind, hafter, hread, hbehind⟩

theorem element_of_leaf {number : Nat} {block : List Line} {node : Node} {goesOn : Line -> Bool}
    (h : Parser.Leaf number block node goesOn) {tag : Tag} {children : List Node}
    {position : Position} (hmem : .element tag children position ∈ node.walk) :
    exists first tagLines text remainder, block = first :: tagLines ∧
      node = .element tag children position ∧ position = ⟨number, number + tagLines.length⟩ ∧
      LineKind.of first = .element ∧ Parser.Opening first tagLines tag text remainder ∧
      Parser.Inline tag remainder (number + tagLines.length) children := by
  cases h with
  | @element first tagLines tag text remainder children hkind hopening hinline =>
      rw [Node.walk] at hmem
      cases List.mem_cons.mp hmem with
      | inl heq =>
          cases heq
          exact ⟨first, tagLines, text, remainder, rfl, rfl, rfl, hkind, hopening, hinline⟩
      | inr hbelow =>
          rcases (inline_children hinline).right with rfl | ⟨shown, rfl⟩
          · rw [Node.walkAll] at hbelow
            cases hbelow
          · simp [Node.walkAll, Node.walk] at hbelow
  | _ => simp [Node.walk, Parser.codeNode, Parser.htmlNode, Parser.paragraphNode] at hmem

theorem spanned_of_leaf {number : Nat} {block : List Line} {node : Node} {goesOn : Line -> Bool}
    (h : Parser.Leaf number block node goesOn) (hstands : Parser.StandsAt document number block)
    {tag : Tag} {children : List Node} {position : Position}
    (hmem : .element tag children position ∈ node.walk) :
    Spanned document tag children position := by
  obtain ⟨first, tagLines, text, remainder, rfl, _, rfl, _, hopening, hinline⟩ :=
    element_of_leaf h hmem
  obtain ⟨hcloses, hchildren⟩ := inline_children hinline
  refine .inline (tagAt_of_opening hopening hstands) hcloses ?_
  rcases hchildren with rfl | ⟨shown, rfl⟩
  · exact .nil _ _
  · exact .singleton rfl (Nat.le_refl _) (Nat.le_refl _) (Nat.le_refl _)

/-!
# Whole documents
-/

/-- What is laid out tiles its lines, and so do the children of each element. -/
theorem tiled_of_laid {number : Nat} {block : List Line} (h : Parser.Laid number block nodes)
    (hstands : Parser.StandsAt document number block) :
    Tiled document number (number + block.length - 1) nodes ∧ AllSpanned document nodes := by
  induction h with
  | @nil number =>
      have hpos := hstands.pos
      refine ⟨.nil document ?_, ?_⟩
      · rw [List.length_nil]
        omega
      · intro tag children position hmem
        cases hmem
  | @blank number first rest nodes hblank _ ih =>
      have hlast : number + (first :: rest).length - 1 = number + 1 + rest.length - 1 := by
        rw [List.length_cons]
        omega
      obtain ⟨htiled, hspanned⟩ := ih hstands.tail
      rw [hlast]
      exact ⟨htiled.blank hstands.getElem? hblank, hspanned⟩
  | @leaf number block rest node goesOn nodes hleaf _ _ ih =>
      obtain ⟨htiled, hspanned⟩ := ih hstands.right
      refine ⟨?_, .cons (fun _ _ _ hmem => spanned_of_leaf hleaf hstands.left hmem) hspanned⟩
      obtain ⟨first, body, rfl, hposition⟩ := position_of_leaf hleaf
      have hlast : number + (first :: body ++ rest).length - 1 =
          number + (first :: body).length + rest.length - 1 := by
        rw [List.length_append, Nat.add_assoc]
      have hend : number + body.length ≤ number + (first :: body).length + rest.length - 1 := by
        rw [List.length_cons]
        omega
      rw [hlast]
      exact htiled.cons hposition (Nat.le_add_right _ _) hend
  | @element number first closing tagLines interior rest tag text remainder children nodes hframe
      _ _ ihchildren ihrest =>
      obtain ⟨htag, hinside, hclosing, hbehind⟩ := Parser.standsAt_frame hstands
      obtain ⟨hchildren, hchildrenSpanned⟩ := ihchildren hinside
      obtain ⟨hrest, hrestSpanned⟩ := ihrest hbehind
      have hspanned : Spanned document tag children
          ⟨number, number + tagLines.length + interior.length + 1⟩ := by
        refine .apart (tagAt_of_opening hframe.opening htag) hframe.stays hframe.blank ?_
          hclosing.getElem? hframe.closes ?_
        · dsimp only
          omega
        · have hlast : number + tagLines.length + 1 + interior.length - 1 =
              number + tagLines.length + interior.length + 1 - 1 := by
            omega
          rw [hlast] at hchildren
          exact hchildren
      have hlast : number + (first :: (tagLines ++ (interior ++ closing :: rest))).length - 1 =
          number + tagLines.length + interior.length + 2 + rest.length - 1 := by
        simp only [List.length_append, List.length_cons]
        omega
      rw [hlast]
      refine ⟨hrest.cons rfl (by omega) (by omega), .cons ?_ hrestSpanned⟩
      intro other below position hmem
      rw [Node.walk, List.mem_cons] at hmem
      cases hmem with
      | inl heq =>
          cases heq
          exact hspanned
      | inr hbelow => exact hchildrenSpanned other below position hbelow

/-- The top-level nodes of a document tile its lines behind the frontmatter, and the children of
each element those between its tags.  A text that is no document has an error on one of its
lines. -/
theorem parse_tiled (source : String) :
    (exists document count, parse source = .ok document ∧
      Frontmatter.read (linesOf source) = .ok (document.frontmatter, count) ∧
      Tiled (linesOf source) (count + 1) (linesOf source).length document.children ∧
      AllSpanned (linesOf source) document.children) ∨
    exists cause, parse source = .error cause ∧ 1 ≤ cause.line ∧
      cause.line ≤ (linesOf source).length := by
  cases hparse : parse source with
  | error cause => exact Or.inr ⟨cause, rfl, within_of_parse hparse⟩
  | ok document =>
      obtain ⟨count, hread, hlaid⟩ := exists_laid hparse
      have hcount := Frontmatter.count_le_length hread
      have hstands := Parser.standsAt_drop hcount
      have hlast : count + 1 + ((linesOf source).drop count).length - 1 =
          (linesOf source).length := by
        rw [List.length_drop]
        omega
      obtain ⟨htiled, hspanned⟩ := tiled_of_laid hlaid hstands
      rw [hlast] at htiled
      exact Or.inl ⟨document, count, rfl, hread, htiled, hspanned⟩

end Document
end LessonPress

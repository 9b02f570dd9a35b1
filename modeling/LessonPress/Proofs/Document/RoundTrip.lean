import LessonPress.Proofs.Document.Blocks
import LessonPress.Proofs.Document.Closings
import LessonPress.Proofs.Document.Head

/-!
# Parsing printed documents

## Every printable tree is found again in its text

A printed node starts with a line of its own kind, and the blank line after it ends it.  So
the blocks of the printed lines are the nodes of the tree, with the lines that they stand on
as their positions.
-/

namespace LessonPress

open Text

namespace Printer

/-!
# Blocks
-/

theorem textOf_toList (text : String) : Parser.textOf text.toList = text :=
  String.ofList_toList

section Blocks

variable {number : Nat} {rest : List Line} {more : List Node}

theorem parses_heading {depth : Nat} {text : String} (position : Position) (hpositive : 1 ≤ depth)
    (hdepth : depth ≤ 6) (htrimmed : Trimmed text.toList)
    (hlast : text.toList.getLast? ≠ some '#') (hmore : Parser.Parses (number + 2) rest more) :
    Parser.Parses number (printNode (.heading depth text position) ++ [] :: rest)
      (placed number (.heading depth text position) :: more) := by
  have hblank : Parser.Parses (number + 1) ([] :: rest) more := .blank LineKind.of_nil hmore
  have hparses := Parser.Parses.heading
    (LineKind.of_printHeading hpositive hdepth htrimmed hlast) hblank
  rw [textOf_toList] at hparses
  rw [placed, span, printNode]
  exact hparses

theorem parses_paragraph {text : String} (position : Position)
    (hlines : forall line, line ∈ splitAt '\n' text.toList -> Prose line)
    (hmore : Parser.Parses (number + (splitAt '\n' text.toList).length + 1) rest more) :
    Parser.Parses number (printNode (.paragraph text position) ++ [] :: rest)
      (placed number (.paragraph text position) :: more) := by
  have htext : Parser.textOf (joinLines ((splitAt '\n' text.toList).map trim)) = text := by
    have htrim : (splitAt '\n' text.toList).map trim = splitAt '\n' text.toList := by
      conv => rhs; rw [← List.map_id (splitAt '\n' text.toList)]
      apply List.map_congr_left
      intro line hline
      exact (hlines line hline).trimmed
    rw [htrim, joinLines_splitAt, textOf_toList]
  rw [placed, span, printNode]
  cases hsplit : splitAt '\n' text.toList with
  | nil => exact absurd hsplit (splitAt_ne_nil _ _)
  | cons first others =>
      rw [hsplit] at hlines hmore htext
      have hprose := hlines first List.mem_cons_self
      obtain ⟨htake, hdrop⟩ := takeWhile_append
        (fun line hline => LineKind.continuesParagraph_prose
          (hlines line (List.mem_cons_of_mem _ hline)))
        ([] :: rest) fun line hline => (Option.some.inj hline) ▸ LineKind.continuesParagraph_nil
      have hafter : (others ++ [] :: rest).drop
          ((others ++ [] :: rest).takeWhile LineKind.continuesParagraph).length = [] :: rest := by
        rw [htake, List.drop_left]
      have hnode : Parser.paragraphNode number (first ::
          (others ++ [] :: rest).takeWhile LineKind.continuesParagraph) =
            .paragraph text ⟨number, number + (first :: others).length - 1⟩ := by
        rw [htake]
        unfold Parser.paragraphNode
        rw [htext]
      rw [← hnode, List.cons_append]
      refine .text (LineKind.of_prose hprose) ?_
      rw [hafter, htake]
      exact .blank LineKind.of_nil hmore

theorem parses_code {block : CodeBlock} (h : block.Printable)
    (hmore : Parser.Parses (number + (printCode block).length + 1) rest more) :
    Parser.Parses number (printNode (.code block) ++ [] :: rest)
      (placed number (.code block) :: more) := by
  have hlength : (printCode block).length = (splitAt '\n' block.value.toList).length + 2 := by
    simp [printCode]
  have hlines : printNode (.code block) ++ [] :: rest =
      (fenceFor block.value.toList ++ printInfo block) ::
        (splitAt '\n' block.value.toList ++ fenceFor block.value.toList :: [] :: rest) := by
    rw [printNode]
    simp [printCode]
  have hnode : Parser.codeNode number (fenceOf block)
      ((splitAt '\n' block.value.toList ++ fenceFor block.value.toList :: [] :: rest).take
        (splitAt '\n' block.value.toList).length) = placed number (.code block) := by
    rw [List.take_left]
    exact codeNode_printCode h number
  rw [hlines, ← hnode]
  refine .fence (of_printCode h) (bodyLength_printCode block _) ?_
  rw [← List.drop_drop, List.drop_left]
  refine .blank LineKind.of_nil ?_
  rw [hlength] at hmore
  exact hmore

theorem parses_selfClosing {tag : Tag} (h : tag.Printable) (position : Position)
    (hclosing : tag.selfClosing = true) (hmore : Parser.Parses (number + 2) rest more) :
    Parser.Parses number (printNode (.element tag [] position) ++ [] :: rest)
      (placed number (.element tag [] position) :: more) := by
  have hblank : Parser.Parses (number + 1) ([] :: rest) more := .blank LineKind.of_nil hmore
  rw [placed, span, printNode, if_pos hclosing, placedAll]
  exact .closedElement (of_printTag h) (Parser.readExtent_selfClosing h number _ hclosing) hblank

theorem parses_open {tag : Tag} {children : List Node} (h : tag.Printable) (position : Position)
    (hopen : tag.selfClosing = false)
    (hprintable : forall child, child ∈ children -> child.Printable)
    (hchildren : Parser.Parses (number + 1) (printNodes children) (placedAll (number + 1) children))
    (hmore : Parser.Parses (number + (printNodes children).length + 3) rest more) :
    Parser.Parses number (printNode (.element tag children position) ++ [] :: rest)
      (placed number (.element tag children position) :: more) := by
  have hlines : printNode (.element tag children position) ++ [] :: rest =
      printTag tag :: (printNodes children ++ printClosing tag :: [] :: rest) := by
    rw [printNode, hopen]
    simp
  have hspan : span number (.element tag children position) =
      ⟨number, number + 0 + (printNodes children).length + 1⟩ := by
    rw [span, printNode, hopen]
    simp
    omega
  have hcount := Parser.closingIndex_printNodes h hprintable ([] :: rest)
  rw [placed, hspan, hlines]
  refine .openElement (of_printTag h) (Parser.readExtent_open h number _ hopen hcount) ?_ ?_
  · rw [List.drop_zero, List.take_left]
    exact hchildren
  · rw [Nat.zero_add, ← List.drop_drop, List.drop_left]
    exact .blank LineKind.of_nil hmore

end Blocks

mutual

theorem parses_printNode {node : Node} (h : node.Printable) {number : Nat} {rest : List Line}
    {more : List Node}
    (hmore : Parser.Parses (number + (printNode node).length + 1) rest more) :
    Parser.Parses number (printNode node ++ [] :: rest) (placed number node :: more) := by
  cases h with
  | heading position hpositive hdepth htrimmed _ hlast =>
      rw [printNode] at hmore
      exact parses_heading position hpositive hdepth htrimmed hlast hmore
  | paragraph position hlines =>
      rw [printNode] at hmore
      exact parses_paragraph position hlines hmore
  | thematicBreak position =>
      rw [printNode] at hmore
      have hblank : Parser.Parses (number + 1) ([] :: rest) more := .blank LineKind.of_nil hmore
      rw [placed, span, printNode]
      exact .thematicBreak LineKind.of_stars hblank
  | code hblock =>
      rw [printNode] at hmore
      exact parses_code hblock hmore
  | @element tag children position htag hclosing hchildren =>
      cases hselfClosing : tag.selfClosing with
      | true =>
          rw [printNode, hselfClosing, if_pos rfl] at hmore
          rw [hclosing hselfClosing]
          exact parses_selfClosing htag position hselfClosing hmore
      | false =>
          have hlength : (printNode (.element tag children position)).length =
              (printNodes children).length + 2 := by
            rw [printNode, hselfClosing]
            simp
          rw [hlength] at hmore
          exact parses_open htag position hselfClosing hchildren
            (parses_printNodes hchildren (number + 1)) hmore

theorem parses_printNodes {nodes : List Node} (h : forall node, node ∈ nodes -> node.Printable)
    (number : Nat) : Parser.Parses number (printNodes nodes) (placedAll number nodes) := by
  cases nodes with
  | nil =>
      rw [printNodes, placedAll]
      exact .nil
  | cons node rest =>
      have hrest := parses_printNodes (fun other hother => h other (List.mem_cons_of_mem _ hother))
        (number + (printNode node).length + 1)
      rw [printNodes, placedAll]
      exact parses_printNode (h node List.mem_cons_self) hrest

end

/-!
# Lines of printed nodes
-/

theorem whole_printTag {tag : Tag} (h : tag.Printable) : Whole (printTag tag) := by
  refine (trimmed_printTag h).whole ?_
  have hname : '\n' ∉ tag.name.toList :=
    Cursor.feed_not_mem_of_named fun c hc => Cursor.isNamePart_of_mem_name h hc
  have hattributes : '\n' ∉ tag.attributes.flatMap printAttribute := by
    intro hmem
    obtain ⟨entry, hentry, hfeed⟩ := List.mem_flatMap.mp hmem
    obtain ⟨hentryName, hvalue⟩ := h.attributes entry hentry
    exact Cursor.feed_not_mem_printAttribute hentryName hvalue hfeed
  unfold printTag
  cases tag.selfClosing <;> simp [hname, hattributes]

theorem whole_printClosing {tag : Tag} (h : tag.Printable) : Whole (printClosing tag) := by
  have htrimmed : Trimmed (printClosing tag) := Parser.trimmed_closingText tag.name
  refine htrimmed.whole ?_
  have hname : '\n' ∉ tag.name.toList :=
    Cursor.feed_not_mem_of_named fun c hc => Cursor.isNamePart_of_mem_name h hc
  simp [printClosing, hname]

theorem whole_printCode {block : CodeBlock} (h : block.Printable) {line : Line}
    (hline : line ∈ printCode block) : Whole line := by
  have hfence : '\n' ∉ fenceFor block.value.toList := by
    intro hmem
    exact absurd (List.mem_replicate.mp hmem).right (by decide)
  have hblank : forall c, c ∈ fenceFor block.value.toList -> isBlank c = false := by
    intro c hc
    rw [(List.mem_replicate.mp hc).right]
    decide
  have htrimmed : Trimmed (fenceFor block.value.toList) :=
    trimmed_of_ends (fun c hc => hblank c (List.mem_of_head? hc))
      fun c hc => hblank c (List.mem_of_getLast? hc)
  simp only [printCode, List.cons_append, List.mem_cons, List.mem_append, List.not_mem_nil,
    or_false] at hline
  rcases hline with rfl | hbody | rfl
  · refine (trimmed_fenceLine h).whole ?_
    simp [hfence, feed_not_mem_printInfo h]
  · constructor
    case feed => exact separator_not_mem_splitAt hbody
    case last =>
      intro hlast
      exact h.value ((infix_of_mem_splitAt hbody).subset (List.mem_of_getLast? hlast))
  · exact htrimmed.whole hfence

mutual

theorem whole_printNode {node : Node} (h : node.Printable) :
    forall line, line ∈ printNode node -> Whole line := by
  cases h with
  | @heading depth text position hpositive hdepth htrimmed hfeed hlast =>
      intro line hline
      rw [printNode, List.mem_singleton] at hline
      rw [hline]
      refine (LineKind.trimmed_printHeading hpositive htrimmed).whole ?_
      unfold printHeading
      split <;> simp [hfeed]
  | paragraph position hlines =>
      intro line hline
      rw [printNode] at hline
      exact (hlines line hline).trimmed.whole (separator_not_mem_splitAt hline)
  | thematicBreak position =>
      intro line hline
      rw [printNode, List.mem_singleton] at hline
      rw [hline]
      exact ⟨by decide, by decide⟩
  | code hblock =>
      intro line hline
      rw [printNode] at hline
      exact whole_printCode hblock hline
  | @element tag children position htag hclosing hchildren =>
      intro line hline
      rw [printNode] at hline
      split at hline
      · rw [List.mem_singleton.mp hline]
        exact whole_printTag htag
      · simp only [List.cons_append, List.mem_cons, List.mem_append, List.not_mem_nil,
          or_false] at hline
        rcases hline with rfl | hinner | rfl
        · exact whole_printTag htag
        · exact whole_printNodes hchildren line hinner
        · exact whole_printClosing htag

theorem whole_printNodes {nodes : List Node} (h : forall node, node ∈ nodes -> node.Printable) :
    forall line, line ∈ printNodes nodes -> Whole line := by
  cases nodes with
  | nil =>
      rw [printNodes]
      nofun
  | cons node rest =>
      intro line hline
      rw [printNodes, List.mem_append, List.mem_cons] at hline
      rcases hline with hnode | rfl | hrest
      · exact whole_printNode (h node List.mem_cons_self) line hnode
      · exact whole_nil
      · exact whole_printNodes (fun other hother => h other (List.mem_cons_of_mem _ hother)) line
          hrest

end

/-!
# Whole documents
-/

theorem opens_prose {line : Line} (h : Prose line) : Frontmatter.opens line = false := by
  unfold Frontmatter.opens
  rw [h.trimmed.trimEnd, beq_eq_false_iff_ne]
  intro heq
  have hbreak := h.noBreak
  rw [heq] at hbreak
  exact absurd hbreak (by decide)

theorem opens_printNode {node : Node} (h : node.Printable) (rest : List Line) {first : Line}
    (hfirst : (printNode node ++ rest).head? = some first) : Frontmatter.opens first = false := by
  cases h with
  | @heading depth text position hpositive hdepth htrimmed hfeed hlast =>
      obtain ⟨tail, hline⟩ := LineKind.exists_printHeading hpositive text
      rw [printNode] at hfirst
      cases hfirst
      refine Frontmatter.opens_of_head ?_
      rw [hline]
      nofun
  | @paragraph text position hlines =>
      rw [printNode] at hfirst
      cases hsplit : splitAt '\n' text.toList with
      | nil => exact absurd hsplit (splitAt_ne_nil _ _)
      | cons line others =>
          rw [hsplit] at hfirst hlines
          cases hfirst
          exact opens_prose (hlines _ List.mem_cons_self)
  | thematicBreak position =>
      rw [printNode] at hfirst
      cases hfirst
      decide
  | @code block hblock =>
      obtain ⟨less, hlength⟩ := exists_fenceLength block.value.toList
      rw [printNode] at hfirst
      cases hfirst
      refine Frontmatter.opens_of_head ?_
      rw [fenceFor_eq, hlength]
      nofun
  | @element tag children position htag hclosing hchildren =>
      have htagLine : first = printTag tag := by
        rw [printNode] at hfirst
        split at hfirst <;> exact (Option.some.inj hfirst).symm
      obtain ⟨c, tail, hprint, _⟩ := exists_printTag htag
      rw [htagLine]
      refine Frontmatter.opens_of_head ?_
      rw [hprint]
      nofun

theorem opens_printNodes {nodes : List Node} (h : forall node, node ∈ nodes -> node.Printable)
    {first : Line} (hfirst : (printNodes nodes).head? = some first) :
    Frontmatter.opens first = false := by
  cases nodes with
  | nil =>
      rw [printNodes] at hfirst
      cases hfirst
  | cons node rest =>
      rw [printNodes] at hfirst
      exact opens_printNode (h node List.mem_cons_self) _ hfirst

end Printer

namespace Document

theorem lines_print {document : Document} (h : document.Printable) :
    linesOf document.print = document.printLines := by
  unfold linesOf print
  rw [String.toList_ofList]
  apply lines_flatMap
  intro line hline
  unfold printLines at hline
  cases List.mem_append.mp hline with
  | inl hhead => exact Printer.whole_printFrontmatter h.frontmatter line hhead
  | inr hnode => exact Printer.whole_printNodes h.children line hnode

/-- Parsing undoes printing: the text of a printable document parses, to the same frontmatter
and to the same tree, in which every node has the lines that it is printed on. -/
theorem parse_print {document : Document} (h : document.Printable) :
    exists parsed, parse document.print = .ok parsed ∧
      parsed.frontmatter = document.frontmatter ∧
      Node.unplacedAll parsed.children = Node.unplacedAll document.children ∧
      parsed.children =
        Printer.placedAll ((Printer.printFrontmatter document.frontmatter).length + 1)
          document.children := by
  let number := (Printer.printFrontmatter document.frontmatter).length + 1
  refine ⟨⟨document.frontmatter, Printer.placedAll number document.children⟩, ?_, rfl,
    Printer.unplacedAll_placedAll number document.children, rfl⟩
  refine parse_eq_ok_iff.mpr
    ⟨(Printer.printFrontmatter document.frontmatter).length, ?_, ?_⟩
  · rw [lines_print h]
    exact Printer.read_printFrontmatter h.frontmatter
      fun first hfirst => Printer.opens_printNodes h.children hfirst
  · rw [lines_print h, printLines, List.drop_left]
    exact Printer.parses_printNodes h.children number

def calloutTree : Document where
  frontmatter := .ofList [("title", "one: \"two\"")]
  children :=
    [.heading 2 "One" ⟨0, 0⟩,
      .element
        ⟨"Callout", [⟨"kind", .string "a \"b\""⟩, ⟨"open", .bare⟩,
          ⟨"value", .expression "\x7b'\x7d'\x7d"⟩], false⟩
        [.element ⟨"Callout", [], false⟩ [.paragraph "one\ntwo" ⟨0, 0⟩] ⟨0, 0⟩,
          .code ⟨some "text", some "plain", "</Callout>\n```", none, none⟩,
          .element ⟨"Image", [⟨"src", .string "a.png"⟩], true⟩ [] ⟨0, 0⟩] ⟨0, 0⟩,
      .thematicBreak ⟨0, 0⟩]

theorem printable_calloutTag (entries : List Attribute)
    (h : forall entry, entry ∈ entries -> IsName entry.name.toList ∧ entry.value.Printable) :
    (Tag.mk "Callout" entries false).Printable where
  name := by
    have hname : "Callout".toList = 'C' :: "allout".toList := rfl
    exact ⟨'C', "allout".toList, hname, by decide +kernel,
      List.all_eq_true.mp (by decide +kernel)⟩
  attributes := h

theorem printable_calloutAttributes : forall entry, entry ∈
    [Attribute.mk "kind" (.string "a \"b\""), Attribute.mk "open" .bare,
      Attribute.mk "value" (.expression "\x7b'\x7d'\x7d")] ->
    IsName entry.name.toList ∧ entry.value.Printable := by
  have hbalanced : Balanced "\x7b'\x7d'\x7d".toList := by
    have hquoted : Balanced ('\'' :: ['\x7d'] ++ '\'' :: []) :=
      .quoted (by decide) (by decide) .nil
    exact .braces hquoted .nil
  intro entry hentry
  simp only [List.mem_cons, List.not_mem_nil, or_false] at hentry
  rcases hentry with rfl | rfl | rfl
  · exact ⟨⟨'k', "ind".toList, rfl, by decide +kernel, List.all_eq_true.mp (by decide +kernel)⟩,
      .string (by decide) (by decide)⟩
  · exact ⟨⟨'o', "pen".toList, rfl, by decide +kernel, List.all_eq_true.mp (by decide +kernel)⟩,
      .bare⟩
  · exact ⟨⟨'v', "alue".toList, rfl, by decide +kernel, List.all_eq_true.mp (by decide +kernel)⟩,
      .expression (by decide) (by decide) hbalanced⟩

theorem printable_calloutTree : calloutTree.Printable := by
  have hparagraph : (Node.paragraph "one\ntwo" ⟨0, 0⟩).Printable := by
    refine .paragraph _ fun line hline => ?_
    have hlines : splitAt '\n' "one\ntwo".toList = ["one".toList, "two".toList] := by
      decide
    rw [hlines] at hline
    simp only [List.mem_cons, List.not_mem_nil, or_false] at hline
    rcases hline with rfl | rfl
    · exact ⟨by decide, by decide, by decide, by decide, by decide, by decide⟩
    · exact ⟨by decide, by decide, by decide, by decide, by decide, by decide⟩
  have hinner : (Node.element ⟨"Callout", [], false⟩ [.paragraph "one\ntwo" ⟨0, 0⟩]
      ⟨0, 0⟩).Printable := by
    refine .element _ (printable_calloutTag [] nofun) nofun ?_
    intro child hchild
    rw [List.mem_singleton.mp hchild]
    exact hparagraph
  have hcode :
      (Node.code ⟨some "text", some "plain", "</Callout>\n```", none, none⟩).Printable := by
    apply Node.Printable.code
    constructor
    case lang =>
      rintro lang ⟨⟩
      have hword : "text".toList.all (fun c => !isBlank c && c != '`') = true := by
        decide
      exact ⟨by decide, fun c hc => by simpa using List.all_eq_true.mp hword c hc⟩
    case info =>
      rintro info ⟨⟩
      exact ⟨nofun, by decide, by decide, by decide, by decide⟩
    case value => decide
    case excerpt => rfl
  have himage : (Node.element ⟨"Image", [⟨"src", .string "a.png"⟩], true⟩ [] ⟨0, 0⟩).Printable := by
    refine .element _ ⟨⟨'I', "mage".toList, rfl, by decide,
      List.all_eq_true.mp (by decide +kernel)⟩, ?_⟩ (fun _ => rfl) nofun
    intro entry hentry
    rw [List.mem_singleton.mp hentry]
    exact ⟨⟨'s', "rc".toList, rfl, by decide +kernel, List.all_eq_true.mp (by decide +kernel)⟩,
      .string (by decide) (by decide)⟩
  constructor
  case frontmatter =>
    intro entry hentry
    have hentries : calloutTree.frontmatter.entries = [("title", "one: \"two\"")] := rfl
    rw [hentries, List.mem_singleton] at hentry
    rw [hentry]
    exact ⟨by decide, by decide, by decide, by decide, by decide, by decide, by decide⟩
  case children =>
    intro node hnode
    simp only [calloutTree, List.mem_cons, List.not_mem_nil, or_false] at hnode
    rcases hnode with rfl | rfl | rfl
    · exact .heading _ (by decide) (by decide) (by decide) (by decide) (by decide)
    · refine .element _ (printable_calloutTag _ printable_calloutAttributes) nofun ?_
      intro child hchild
      simp only [List.mem_cons, List.not_mem_nil, or_false] at hchild
      rcases hchild with rfl | rfl | rfl
      · exact hinner
      · exact hcode
      · exact himage
    · exact .thematicBreak _

theorem parse_print_callout : calloutTree.Printable ∧
    exists parsed, parse calloutTree.print = .ok parsed ∧
      parsed.frontmatter = calloutTree.frontmatter ∧
      Node.unplacedAll parsed.children = Node.unplacedAll calloutTree.children := by
  refine ⟨printable_calloutTree, ?_⟩
  obtain ⟨parsed, hparse, hfrontmatter, htree, _⟩ := parse_print printable_calloutTree
  exact ⟨parsed, hparse, hfrontmatter, htree⟩

end Document
end LessonPress

import LessonPress.Proofs.Document.Blocks
import LessonPress.Proofs.Document.Extents

/-!
# The layout of a document

## Which lines each node takes up

The lines that parse come apart into blank lines, blocks of one node each, and elements
around the lines of their children.  A block is the same block in front of any lines that do
not go on with it.
-/

namespace LessonPress

open Text

namespace Parser

/-!
# Lines of a document
-/

def StandsAt (document : List Line) (number : Nat) (block : List Line) : Prop :=
  exists front after, document = front ++ (block ++ after) ∧ number = front.length + 1

namespace StandsAt

variable {document block others : List Line} {number : Nat}

theorem left (h : StandsAt document number (block ++ others)) : StandsAt document number block := by
  obtain ⟨front, after, rfl, hnumber⟩ := h
  exact ⟨front, others ++ after, by rw [List.append_assoc], hnumber⟩

theorem right (h : StandsAt document number (block ++ others)) :
    StandsAt document (number + block.length) others := by
  obtain ⟨front, after, rfl, rfl⟩ := h
  refine ⟨front ++ block, after, by simp only [List.append_assoc], ?_⟩
  rw [List.length_append]
  omega

theorem tail {first : Line} (h : StandsAt document number (first :: block)) :
    StandsAt document (number + 1) block := by
  have hright : StandsAt document number ([first] ++ block) := h
  exact hright.right

theorem pos (h : StandsAt document number block) : 0 < number := by
  obtain ⟨front, after, _, rfl⟩ := h
  exact Nat.succ_pos _

theorem exists_drop (h : StandsAt document number block) :
    exists after, document.drop (number - 1) = block ++ after := by
  obtain ⟨front, after, rfl, rfl⟩ := h
  exact ⟨after, by rw [Nat.add_sub_cancel, List.drop_left]⟩

theorem getElem? {first : Line} (h : StandsAt document number (first :: block)) :
    document[number - 1]? = some first := by
  obtain ⟨front, after, rfl, rfl⟩ := h
  rw [Nat.add_sub_cancel, List.getElem?_append_right (Nat.le_refl _), Nat.sub_self]
  rfl

end StandsAt

theorem standsAt_drop {document : List Line} {count : Nat} (h : count ≤ document.length) :
    StandsAt document (count + 1) (document.drop count) := by
  refine ⟨document.take count, [], ?_, ?_⟩
  · rw [List.append_nil, List.take_append_drop]
  · rw [List.length_take, Nat.min_eq_left h]

/-!
# Blocks and elements
-/

/-- The lines of a node that is not parsed from other blocks, with the lines that would go on
with it. -/
inductive Leaf (number : Nat) : List Line -> Node -> (Line -> Bool) -> Prop where
  | fence {fence : Fence} {first last : Line} {body : List Line} :
      LineKind.of first = .fence fence ->
      (forall line, line ∈ body -> fence.closes line = false) -> fence.closes last = true ->
      Leaf number (first :: (body ++ [last])) (codeNode number fence body) fun _ => false
  | heading {first title : Line} {depth : Nat} : LineKind.of first = .heading depth title ->
      Leaf number [first] (.heading depth (textOf title) (.line number)) fun _ => false
  | thematicBreak {first : Line} : LineKind.of first = .thematicBreak ->
      Leaf number [first] (.thematicBreak (.line number)) fun _ => false
  | html {first : Line} {body : List Line} : LineKind.of first = .html ->
      (forall line, line ∈ body -> isFilled line = true) ->
      Leaf number (first :: body) (htmlNode number (first :: body)) isFilled
  | text {first : Line} {body : List Line} : LineKind.of first = .text ->
      (forall line, line ∈ body -> LineKind.continuesParagraph line = true) ->
      Leaf number (first :: body) (paragraphNode number (first :: body))
        LineKind.continuesParagraph
  | element {first : Line} {tagLines : List Line} {tag : Tag} {text remainder : List Char}
      {children : List Node} : LineKind.of first = .element ->
      Opening first tagLines tag text remainder ->
      Inline tag remainder (number + tagLines.length) children ->
      Leaf number (first :: tagLines)
        (.element tag children ⟨number, number + tagLines.length⟩) fun _ => false

structure Frame (first : Line) (tagLines : List Line) (tag : Tag) (text remainder : List Char)
    (interior : List Line) (closing : Line) : Prop where
  kind : LineKind.of first = .element
  opening : Opening first tagLines tag text remainder
  stays : tag.selfClosing = false
  blank : isBlankLine remainder = true
  found : Search.start.after? tag.name interior = some .start
  noFence : Fence.ofLine? closing = none
  closes : trim closing = closingText tag.name

/-- The lines, the first of which has the given number, are laid out as the nodes. -/
inductive Laid : Nat -> List Line -> List Node -> Prop where
  | nil {number : Nat} : Laid number [] []
  | blank {number : Nat} {first : Line} {rest : List Line} {nodes : List Node} :
      isBlankLine first = true -> Laid (number + 1) rest nodes ->
      Laid number (first :: rest) nodes
  | leaf {number : Nat} {block rest : List Line} {node : Node} {goesOn : Line -> Bool}
      {more : List Node} : Leaf number block node goesOn ->
      (forall line, rest.head? = some line -> goesOn line = false) ->
      Laid (number + block.length) rest more -> Laid number (block ++ rest) (node :: more)
  | element {number : Nat} {first closing : Line} {tagLines interior rest : List Line} {tag : Tag}
      {text remainder : List Char} {children more : List Node} :
      Frame first tagLines tag text remainder interior closing ->
      Laid (number + tagLines.length + 1) interior children ->
      Laid (number + tagLines.length + interior.length + 2) rest more ->
      Laid number (first :: (tagLines ++ (interior ++ closing :: rest)))
        (.element tag children ⟨number, number + tagLines.length + interior.length + 1⟩ :: more)

/-!
# Parsing what is laid out
-/

theorem parseBlocks_blank {first : Line} (h : isBlankLine first = true) (number : Nat)
    (rest : List Line) : parseBlocks number (first :: rest) = parseBlocks (number + 1) rest := by
  rw [parseBlocks, LineKind.of_eq_blank_iff.mpr h]

section Leaf

variable {number : Nat} {block rest : List Line} {node : Node} {goesOn : Line -> Bool}

theorem Leaf.parseBlocks (h : Leaf number block node goesOn)
    (hrest : forall line, rest.head? = some line -> goesOn line = false) :
    parseBlocks number (block ++ rest) = (do
      let more ← parseBlocks (number + block.length) rest
      .ok (node :: more)) := by
  cases h with
  | @fence fence first last body hkind hbody hlast =>
      rw [List.cons_append, List.append_assoc, List.singleton_append, Parser.parseBlocks, hkind]
      dsimp only
      rw [show fence.bodyLength (body ++ last :: rest) = some body.length from
        findIdx?_append_cons hbody hlast rest]
      dsimp only
      rw [List.take_left, ← List.drop_drop, List.drop_left, List.drop_one, List.tail_cons,
        List.length_cons, List.length_append, List.length_singleton]
      rfl
  | heading hkind =>
      rw [List.singleton_append, Parser.parseBlocks, hkind]
      rfl
  | thematicBreak hkind =>
      rw [List.singleton_append, Parser.parseBlocks, hkind]
      rfl
  | html hkind hbody =>
      obtain ⟨htake, _⟩ := takeWhile_append hbody rest hrest
      rw [List.cons_append, Parser.parseBlocks, hkind]
      dsimp only
      rw [htake, List.length_cons, Nat.add_sub_cancel, List.drop_left]
  | text hkind hbody =>
      obtain ⟨htake, _⟩ := takeWhile_append hbody rest hrest
      rw [List.cons_append, Parser.parseBlocks, hkind]
      dsimp only
      rw [htake, List.length_cons, Nat.add_sub_cancel, List.drop_left]
  | element hkind hopening hinline =>
      rw [List.cons_append, Parser.parseBlocks, hkind]
      dsimp only
      rw [hopening.readExtent_closed hinline rest]
      dsimp only
      rw [List.drop_left, List.length_cons, Nat.add_assoc]

theorem Leaf.not_goesOn (h : Leaf number block node goesOn) {line : Line}
    (hline : isBlankLine line = true) : goesOn line = false := by
  cases h with
  | html _ _ =>
      unfold isFilled
      rw [hline]
      rfl
  | text _ _ =>
      unfold LineKind.continuesParagraph
      rw [LineKind.of_eq_blank_iff.mpr hline]
  | _ => rfl

/-- A block goes on with all tags or with none. -/
theorem Leaf.goesOn_eq (h : Leaf number block node goesOn) {line other : Line}
    (hline : LineKind.of line = .element) (hother : LineKind.of other = .element) :
    goesOn other = goesOn line := by
  cases h with
  | html _ _ =>
      have hfilled : forall next, LineKind.of next = .element -> isFilled next = true := by
        intro next hnext
        unfold isFilled
        rw [Bool.not_eq_true', Bool.eq_false_iff]
        intro hblank
        rw [LineKind.of_eq_blank_iff.mpr hblank] at hnext
        cases hnext
      rw [hfilled line hline, hfilled other hother]
  | text _ _ =>
      unfold LineKind.continuesParagraph
      rw [hline, hother]
  | _ => rfl

end Leaf

section Frame

variable {first closing : Line} {tagLines interior : List Line} {tag : Tag}
  {text remainder : List Char}

theorem standsAt_frame {document rest : List Line} {number : Nat}
    (h : StandsAt document number (first :: (tagLines ++ (interior ++ closing :: rest)))) :
    StandsAt document number (first :: tagLines) ∧
      StandsAt document (number + tagLines.length + 1) interior ∧
      StandsAt document (number + tagLines.length + interior.length + 1) [closing] ∧
      StandsAt document (number + tagLines.length + interior.length + 2) rest := by
  have htag : StandsAt document number ((first :: tagLines) ++ (interior ++ closing :: rest)) := h
  have hinside := htag.right
  have hclosing := hinside.right
  have hopened : number + (first :: tagLines).length = number + tagLines.length + 1 := rfl
  have hclosed : number + tagLines.length + 1 + interior.length =
      number + tagLines.length + interior.length + 1 := by
    omega
  rw [hopened] at hinside hclosing
  rw [hclosed] at hclosing
  have hlast : StandsAt document (number + tagLines.length + interior.length + 1)
      ([closing] ++ rest) := hclosing
  exact ⟨htag.left, hinside.left, hlast.left, hclosing.tail⟩

theorem Frame.closingIndex (h : Frame first tagLines tag text remainder interior closing)
    (rest : List Line) :
    closingIndex tag.name 0 none (interior ++ closing :: rest) = some interior.length :=
  (closingIndex_eq_some_iff .start).mpr
    ⟨interior, closing, rest, rfl, rfl, h.found, h.noFence, h.closes⟩

theorem Frame.parseBlocks (h : Frame first tagLines tag text remainder interior closing)
    (number : Nat) (rest : List Line) :
    parseBlocks number (first :: (tagLines ++ (interior ++ closing :: rest))) = (do
      let children ← parseBlocks (number + tagLines.length + 1) interior
      let more ← parseBlocks (number + tagLines.length + interior.length + 2) rest
      .ok (.element tag children ⟨number, number + tagLines.length + interior.length + 1⟩ ::
        more)) := by
  rw [Parser.parseBlocks, h.kind]
  dsimp only
  rw [h.opening.readExtent_open number h.stays h.blank, h.closingIndex]
  dsimp only
  have hrest : (tagLines ++ (interior ++ closing :: rest)).drop
      (tagLines.length + interior.length + 1) = rest := by
    rw [← List.drop_drop, ← List.drop_drop, List.drop_left, List.drop_left, List.drop_one,
      List.tail_cons]
  rw [List.drop_left, List.take_left, hrest]

end Frame

theorem Laid.parseBlocks {number : Nat} {block : List Line} {nodes : List Node}
    (h : Laid number block nodes) : parseBlocks number block = .ok nodes := by
  induction h with
  | nil => rw [Parser.parseBlocks]
  | blank hblank _ ih =>
      rw [parseBlocks_blank hblank]
      exact ih
  | leaf hleaf hrest _ ih =>
      rw [hleaf.parseBlocks hrest, ih]
      rfl
  | element hframe _ _ ihchildren ihrest =>
      rw [hframe.parseBlocks, ihchildren, ihrest]
      rfl

/-- Lines that are laid out parse in front of a blank line as they do alone. -/
theorem Laid.parseBlocks_append {number : Nat} {block more : List Line} {nodes : List Node}
    (h : Laid number block nodes)
    (hmore : forall line, more.head? = some line -> isBlankLine line = true) :
    Parser.parseBlocks number (block ++ more) = (do
      let others ← Parser.parseBlocks (number + block.length) more
      .ok (nodes ++ others)) := by
  induction h with
  | nil =>
      rw [List.nil_append, List.length_nil, Nat.add_zero]
      cases Parser.parseBlocks _ more <;> rfl
  | @blank number first rest nodes hblank _ ih =>
      rw [List.cons_append, parseBlocks_blank hblank, ih, List.length_cons, Nat.add_assoc,
        Nat.add_comm 1]
  | @leaf number block rest node goesOn nodes hleaf hrest _ ih =>
      have hstop : forall line, (rest ++ more).head? = some line -> goesOn line = false := by
        intro line hline
        cases rest with
        | nil => exact hleaf.not_goesOn (hmore line hline)
        | cons next others => exact hrest line hline
      rw [List.append_assoc, hleaf.parseBlocks hstop, ih, List.length_append, Nat.add_assoc]
      cases Parser.parseBlocks _ more <;> rfl
  | @element number first closing tagLines interior rest tag text remainder children nodes hframe
      hchildren _ _ ihrest =>
      have hlength : number + (first :: (tagLines ++ (interior ++ closing :: rest))).length =
          number + tagLines.length + interior.length + 2 + rest.length := by
        simp only [List.length_cons, List.length_append]
        omega
      rw [List.cons_append, List.append_assoc, List.append_assoc, List.cons_append,
        hframe.parseBlocks, hchildren.parseBlocks, ihrest, hlength]
      cases Parser.parseBlocks _ more <;> rfl

/-!
# What is parsed is laid out
-/

theorem exists_bodyLength {fence : Fence} {rest : List Line} {count : Nat}
    (h : fence.bodyLength rest = some count) :
    exists body last others, rest = body ++ last :: others ∧ body.length = count ∧
      (forall line, line ∈ body -> fence.closes line = false) ∧ fence.closes last = true := by
  obtain ⟨hlt, hlast, hbody⟩ := List.findIdx?_eq_some_iff_getElem.mp h
  refine ⟨rest.take count, rest[count], rest.drop (count + 1), ?_, ?_, ?_, hlast⟩
  · rw [List.getElem_cons_drop, List.take_append_drop]
  · rw [List.length_take]
    omega
  · intro line hline
    obtain ⟨index, hindex, rfl⟩ := List.mem_take_iff_getElem.mp hline
    simpa using hbody index (by omega)

theorem exists_takeWhile (goesOn : Line -> Bool) (rest : List Line) :
    exists body others, rest = body ++ others ∧ rest.takeWhile goesOn = body ∧
      (forall line, line ∈ body -> goesOn line = true) ∧
      forall line, others.head? = some line -> goesOn line = false := by
  refine ⟨rest.takeWhile goesOn, rest.dropWhile goesOn, List.takeWhile_append_dropWhile.symm, rfl,
    List.all_eq_true.mp List.all_takeWhile, ?_⟩
  intro line hline
  have hstop := List.head?_dropWhile_not goesOn rest
  rw [hline] at hstop
  simpa using hstop

theorem laid_of_parses {number : Nat} {block : List Line} {nodes : List Node}
    (h : Parses number block nodes) (hlines : forall line, line ∈ block -> '\n' ∉ line) :
    Laid number block nodes := by
  induction h with
  | nil => exact .nil
  | blank hkind _ ih =>
      exact .blank (LineKind.of_eq_blank_iff.mp hkind) (ih fun line hline =>
        hlines line (List.mem_cons_of_mem _ hline))
  | @fence number count first rest fence more hkind hlength _ ih =>
      obtain ⟨body, last, others, rfl, rfl, hbody, hlast⟩ := exists_bodyLength hlength
      rw [← List.drop_drop, List.drop_left, List.drop_one, List.tail_cons] at ih
      have hothers := ih fun line hline => hlines line (by simp [hline])
      have hleaf : Leaf number (first :: (body ++ [last])) (codeNode number fence body)
          fun _ => false := .fence hkind hbody hlast
      have hblock : first :: (body ++ last :: others) = first :: (body ++ [last]) ++ others := by
        simp
      rw [List.take_left, hblock]
      refine .leaf hleaf (fun _ _ => rfl) ?_
      rw [List.length_cons, List.length_append, List.length_singleton]
      exact hothers
  | heading hkind _ ih =>
      refine .leaf (.heading hkind) (fun _ _ => rfl) ?_
      exact ih fun line hline => hlines line (List.mem_cons_of_mem _ hline)
  | thematicBreak hkind _ ih =>
      refine .leaf (.thematicBreak hkind) (fun _ _ => rfl) ?_
      exact ih fun line hline => hlines line (List.mem_cons_of_mem _ hline)
  | @html number first rest more hkind _ ih =>
      obtain ⟨body, others, rfl, htake, hbody, hothers⟩ := exists_takeWhile isFilled rest
      rw [htake, List.drop_left] at ih
      rw [htake]
      refine .leaf (.html hkind hbody) hothers ?_
      exact ih fun line hline => hlines line (by simp [hline])
  | @text number first rest more hkind _ ih =>
      obtain ⟨body, others, rfl, htake, hbody, hothers⟩ :=
        exists_takeWhile LineKind.continuesParagraph rest
      rw [htake, List.drop_left] at ih
      rw [htake]
      refine .leaf (.text hkind hbody) hothers ?_
      exact ih fun line hline => hlines line (by simp [hline])
  | closedElement hkind hextent _ ih =>
      obtain ⟨tagLines, others, text, remainder, rfl, rfl, hopening, hends⟩ :=
        exists_opening_of_readExtent hkind hlines hextent
      cases hends with
      | inline hinline =>
          rw [List.drop_left] at ih
          refine .leaf (.element hkind hopening hinline) (fun _ _ => rfl) ?_
          exact ih fun line hline => hlines line (by simp [hline])
  | @openElement number _ count _ _ tag children more hkind hextent _ _ ihchildren ihmore =>
      obtain ⟨tagLines, others, text, remainder, rfl, rfl, hopening, hends⟩ :=
        exists_opening_of_readExtent hkind hlines hextent
      cases hends with
      | later hstays hblank hcount =>
          obtain ⟨interior, closing, following, rfl, rfl, hfound, hnoFence, hcloses⟩ :=
            (closingIndex_eq_some_iff .start).mp hcount
          rw [List.drop_left, List.take_left] at ihchildren
          rw [← List.drop_drop, ← List.drop_drop, List.drop_left, List.drop_left, List.drop_one,
            List.tail_cons] at ihmore
          refine .element ⟨hkind, hopening, hstays, hblank, hfound, hnoFence, hcloses⟩ ?_ ?_
          · exact ihchildren fun line hline => hlines line (by simp [hline])
          · exact ihmore fun line hline => hlines line (by simp [hline])

theorem laid_iff {number : Nat} {block : List Line} {nodes : List Node}
    (hlines : forall line, line ∈ block -> '\n' ∉ line) :
    Laid number block nodes <-> parseBlocks number block = .ok nodes :=
  ⟨Laid.parseBlocks, fun h => laid_of_parses (parses_of_parseBlocks h) hlines⟩

end Parser
end LessonPress

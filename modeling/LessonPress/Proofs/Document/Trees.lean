import LessonPress.Proofs.Document.Shifts
import LessonPress.Proofs.Document.Substance

/-!
# Trees without places

## When lines parse to given nodes, wherever they stand

The lines of an element that stays open come apart in one way only.  With a closing line more
or less in between, the children would hold other characters than they do.
-/

namespace LessonPress

open Text

namespace Node

mutual

theorem unplaced_moved (count : Nat) (node : Node) :
    (node.moved count).unplaced = node.unplaced := by
  cases node with
  | element tag children position =>
      rw [moved, unplaced, unplaced, unplacedAll_movedAll]
  | _ => rfl

theorem unplacedAll_movedAll (count : Nat) (nodes : List Node) :
    unplacedAll (movedAll count nodes) = unplacedAll nodes := by
  cases nodes with
  | nil => rfl
  | cons node rest =>
      rw [movedAll, unplacedAll, unplacedAll, unplaced_moved, unplacedAll_movedAll]

end

end Node

namespace Parser

def SameTree (block : List Line) (nodes : List Node) : Prop :=
  exists others, parseBlocks 0 block = .ok others ∧
    Node.unplacedAll others = Node.unplacedAll nodes

theorem sameTree_iff (number : Nat) (block : List Line) (nodes : List Node) :
    SameTree block nodes <-> exists others, parseBlocks number block = .ok others ∧
      Node.unplacedAll others = Node.unplacedAll nodes := by
  have hmoved := parseBlocks_moved number 0 block
  rw [Nat.zero_add] at hmoved
  rw [hmoved]
  unfold SameTree
  cases parseBlocks 0 block with
  | error cause =>
      constructor
      · rintro ⟨_, ⟨⟩, _⟩
      · rintro ⟨_, ⟨⟩, _⟩
  | ok found =>
      constructor
      · rintro ⟨_, ⟨⟩, hsame⟩
        exact ⟨_, rfl, (Node.unplacedAll_movedAll number found).trans hsame⟩
      · rintro ⟨_, ⟨⟩, hsame⟩
        exact ⟨_, rfl, (Node.unplacedAll_movedAll number found).symm.trans hsame⟩

theorem Laid.sameTree {number : Nat} {block : List Line} {nodes : List Node}
    (h : Laid number block nodes) : SameTree block nodes :=
  (sameTree_iff number block nodes).mpr ⟨nodes, h.parseBlocks, rfl⟩

theorem kept_of_sameTree {block : List Line} {nodes : List Node} (h : SameTree block nodes)
    (hlines : forall line, line ∈ block -> '\n' ∉ line) : keptLines block = Node.keptAll nodes := by
  obtain ⟨others, hparse, hsame⟩ := h
  rw [kept_of_laid ((laid_iff hlines).mpr hparse), ← Node.keptAll_unplacedAll, hsame,
    Node.keptAll_unplacedAll]

/-!
# Blocks
-/

theorem sameTree_blank {first : Line} (h : isBlankLine first = true) (rest : List Line)
    (nodes : List Node) : SameTree (first :: rest) nodes <-> SameTree rest nodes := by
  rw [sameTree_iff 1 rest]
  unfold SameTree
  rw [parseBlocks_blank h]

theorem bind_cons_eq_ok_iff {node : Node} {others : List Node}
    {rest : Except ParseError (List Node)} :
    (do
      let more ← rest
      .ok (node :: more)) = .ok others <->
    exists more, rest = .ok more ∧ others = node :: more := by
  constructor
  · intro h
    obtain ⟨more, hrest, hmore⟩ := ok_of_bind h
    cases hmore
    exact ⟨more, hrest, rfl⟩
  · rintro ⟨more, rfl, rfl⟩
    rfl

theorem Leaf.sameTree_iff {number : Nat} {block rest : List Line} {node other : Node}
    {goesOn : Line -> Bool} {more : List Node} (h : Leaf number block node goesOn)
    (hrest : forall line, rest.head? = some line -> goesOn line = false)
    (hother : node.unplaced = other.unplaced) :
    SameTree (block ++ rest) (other :: more) <-> SameTree rest more := by
  rw [Parser.sameTree_iff number (block ++ rest), Parser.sameTree_iff (number + block.length) rest,
    h.parseBlocks hrest]
  constructor
  · rintro ⟨others, hparse, hsame⟩
    obtain ⟨found, hfound, rfl⟩ := bind_cons_eq_ok_iff.mp hparse
    rw [Node.unplacedAll, Node.unplacedAll] at hsame
    exact ⟨found, hfound, (List.cons.inj hsame).right⟩
  · rintro ⟨found, hfound, hsame⟩
    refine ⟨node :: found, bind_cons_eq_ok_iff.mpr ⟨found, hfound, rfl⟩, ?_⟩
    rw [Node.unplacedAll, Node.unplacedAll, hother, hsame]

theorem Inline.exists_at {tag : Tag} {remainder : List Char} {line : Nat} {children : List Node}
    (h : Inline tag remainder line children) (other : Nat) :
    exists others, Inline tag remainder other others ∧
      Node.unplacedAll others = Node.unplacedAll children := by
  cases h with
  | selfClosing hclosing hblank => exact ⟨[], .selfClosing hclosing hblank, rfl⟩
  | @closed inner hopen hinner =>
      refine ⟨inlineChildren inner other, .closed hopen hinner, ?_⟩
      unfold inlineChildren
      split <;> rfl

/-!
# Elements
-/

section Element

variable {first closing : Line} {tagLines interior rest : List Line} {tag : Tag}
  {text remainder : List Char} {children more : List Node}

theorem Frame.sameTree_iff (h : Frame first tagLines tag text remainder interior closing)
    (position : Position) :
    SameTree (first :: (tagLines ++ (interior ++ closing :: rest)))
        (.element tag children position :: more) <->
      SameTree interior children ∧ SameTree rest more := by
  rw [Parser.sameTree_iff (0 + tagLines.length + 1) interior,
    Parser.sameTree_iff (0 + tagLines.length + interior.length + 2) rest]
  unfold SameTree
  rw [h.parseBlocks 0]
  constructor
  · rintro ⟨others, hparse, hsame⟩
    obtain ⟨inside, hinside, hparse⟩ := ok_of_bind hparse
    obtain ⟨behind, hbehind, rfl⟩ := bind_cons_eq_ok_iff.mp hparse
    rw [Node.unplacedAll, Node.unplacedAll, Node.unplaced, Node.unplaced] at hsame
    injection hsame with hnode hmore
    injection hnode with _ hchildren _
    exact ⟨⟨inside, hinside, hchildren⟩, behind, hbehind, hmore⟩
  · rintro ⟨⟨inside, hinside, hchildren⟩, behind, hbehind, hmore⟩
    rw [hinside, hbehind]
    refine ⟨_, rfl, ?_⟩
    rw [Node.unplacedAll, Node.unplacedAll, Node.unplaced, Node.unplaced, hchildren, hmore]

theorem exists_frame_of_sameTree {following : List Line} {nodes : List Node}
    (hkind : LineKind.of first = .element) (hopening : Opening first tagLines tag text remainder)
    (hstays : tag.selfClosing = false) (hblank : isBlankLine remainder = true)
    (h : SameTree (first :: (tagLines ++ following)) nodes) :
    exists interior closing rest, following = interior ++ closing :: rest ∧
      Frame first tagLines tag text remainder interior closing := by
  obtain ⟨others, hparse, _⟩ := h
  rw [parseBlocks, hkind] at hparse
  dsimp only at hparse
  rw [hopening.readExtent_open 0 hstays hblank] at hparse
  cases hcount : closingIndex tag.name 0 none following with
  | none =>
      rw [hcount] at hparse
      cases hparse
  | some count =>
      obtain ⟨interior, closing, rest, hfollowing, _, hfound, hnoFence, hcloses⟩ :=
        (closingIndex_eq_some_iff .start).mp hcount
      exact ⟨interior, closing, rest, hfollowing, hkind, hopening, hstays, hblank, hfound, hnoFence,
        hcloses⟩

theorem kept_pos_of_closes {name : String} (h : trim closing = closingText name) :
    0 < kept closing := by
  have hbracket : kept ['<'] = 1 := by
    decide
  have hstart : closingText name = '<' :: ('/' :: name.toList ++ ['>']) := rfl
  rw [← kept_trim, h, hstart, kept_cons, hbracket]
  omega

/-- Lines are cut in one way in front of a line that holds something, if the front holds a given
number of characters. -/
theorem eq_of_kept {others behind : List Line} {last : Line}
    (h : interior ++ closing :: rest = others ++ last :: behind)
    (hkept : keptLines interior = keptLines others) (hclosing : 0 < kept closing)
    (hlast : 0 < kept last) : interior = others ∧ closing = last ∧ rest = behind := by
  rcases List.append_eq_append_iff.mp h with ⟨between, hothers, hrest⟩ | ⟨between, hinside, hrest⟩
  · cases between with
    | nil =>
        rw [List.append_nil] at hothers
        exact ⟨hothers.symm, List.cons.inj hrest⟩
    | cons line between =>
        obtain ⟨rfl, _⟩ := List.cons.inj hrest
        rw [hothers, keptLines_append, keptLines_cons] at hkept
        omega
  · cases between with
    | nil =>
        rw [List.append_nil] at hinside
        exact ⟨hinside, (List.cons.inj hrest).left.symm, (List.cons.inj hrest).right.symm⟩
    | cons line between =>
        obtain ⟨rfl, _⟩ := List.cons.inj hrest
        rw [hinside, keptLines_append, keptLines_cons] at hkept
        omega

/-- Lines in which the children hold the same characters parse to the same tree only if the
search ends at the same closing line. -/
theorem sameTree_element_iff (hkind : LineKind.of first = .element)
    (hopening : Opening first tagLines tag text remainder) (hstays : tag.selfClosing = false)
    (hblank : isBlankLine remainder = true) (hnoFence : Fence.ofLine? closing = none)
    (hcloses : trim closing = closingText tag.name)
    (hkept : keptLines interior = Node.keptAll children)
    (hlines : forall line, line ∈ interior ++ closing :: rest -> '\n' ∉ line)
    (position : Position) :
    SameTree (first :: (tagLines ++ (interior ++ closing :: rest)))
        (.element tag children position :: more) <->
      Search.start.after? tag.name interior = some .start ∧ SameTree interior children ∧
        SameTree rest more := by
  constructor
  · intro h
    obtain ⟨inside, last, behind, hfollowing, hframe⟩ :=
      exists_frame_of_sameTree hkind hopening hstays hblank h
    rw [hfollowing] at h hlines
    obtain ⟨hinside, hbehind⟩ := (hframe.sameTree_iff position).mp h
    -- the lines in front of the closing line that is found hold just what the children hold, so
    -- it is the given one
    have hsame : keptLines interior = keptLines inside := by
      rw [hkept, kept_of_sameTree hinside fun line hline =>
        hlines line (List.mem_append_left _ hline)]
    obtain ⟨rfl, rfl, rfl⟩ := eq_of_kept hfollowing hsame (kept_pos_of_closes hcloses)
      (kept_pos_of_closes hframe.closes)
    exact ⟨hframe.found, hinside, hbehind⟩
  · rintro ⟨hfound, hinside, hbehind⟩
    have hframe : Frame first tagLines tag text remainder interior closing :=
      ⟨hkind, hopening, hstays, hblank, hfound, hnoFence, hcloses⟩
    exact (hframe.sameTree_iff position).mpr ⟨hinside, hbehind⟩

end Element

end Parser
end LessonPress

import LessonPress.Proofs.Document.Tiling

/-!
# Elements around a line

## Which elements a line stands in

The lines of an element follow each other, so a line of the document stands inside of the
element, in front of it or behind it.  The search for the closing line of an element comes to
the lines inside of it and to no others.
-/

namespace LessonPress

open Text

namespace Parser

/-!
# Elements in a layout
-/

inductive OpensAt (tag : Tag) : List Line -> Nat -> Prop where
  | intro {front tagLines after : List Line} {first : Line} {text remainder : List Char} :
      LineKind.of first = .element -> Opening first tagLines tag text remainder ->
      OpensAt tag (front ++ first :: (tagLines ++ after)) front.length

section OpensAt

variable {tag : Tag} {block : List Line} {count : Nat}

theorem OpensAt.append (h : OpensAt tag block count) (front behind : List Line) :
    OpensAt tag (front ++ (block ++ behind)) (front.length + count) := by
  obtain ⟨hkind, hopening⟩ := h
  rw [List.append_assoc, List.cons_append, List.append_assoc, ← List.append_assoc,
    ← List.length_append]
  exact .intro hkind hopening

theorem OpensAt.lt_length (h : OpensAt tag block count) : count < block.length := by
  obtain ⟨_, _⟩ := h
  rw [List.length_append, List.length_cons]
  omega

theorem OpensAt.exists_opening {front after : List Line} {line : Line}
    (h : OpensAt tag (front ++ line :: after) front.length) :
    LineKind.of line = .element ∧ exists tagLines text remainder,
      Opening line tagLines tag text remainder := by
  generalize hblock : front ++ line :: after = block at h
  generalize hcount : front.length = count at h
  obtain ⟨hkind, hopening⟩ := h
  obtain ⟨rfl, _⟩ := List.cons.inj (List.append_inj hblock hcount).right
  exact ⟨hkind, _, _, _, hopening⟩

end OpensAt

theorem Laid.exists_opensAt {number : Nat} {block : List Line} {nodes : List Node}
    (h : Laid number block nodes) {tag : Tag} {children : List Node} {position : Position}
    (hmem : .element tag children position ∈ Node.walkAll nodes) :
    exists count, OpensAt tag block count ∧ position.startLine = number + count ∧
      position.endLine < number + block.length := by
  induction h with
  | nil =>
      rw [Node.walkAll] at hmem
      cases hmem
  | @blank number first rest nodes _ _ ih =>
      obtain ⟨count, hopens, hstart, hend⟩ := ih hmem
      have hwhole := hopens.append [first] []
      rw [List.append_nil] at hwhole
      refine ⟨[first].length + count, hwhole, ?_, ?_⟩
      · rw [hstart, List.length_singleton, Nat.add_assoc]
      · rw [List.length_cons]
        omega
  | @leaf number block rest node goesOn more hleaf _ _ ih =>
      rw [Node.walkAll, List.mem_append] at hmem
      rw [List.length_append]
      cases hmem with
      | inl hnode =>
          obtain ⟨first, tagLines, text, remainder, rfl, _, rfl, hkind, hopening, _⟩ :=
            Document.element_of_leaf hleaf hnode
          have hopens : OpensAt tag ([] ++ first :: (tagLines ++ rest)) 0 := .intro hkind hopening
          refine ⟨0, hopens, rfl, ?_⟩
          rw [List.length_cons]
          dsimp only
          omega
      | inr hmore =>
          obtain ⟨count, hopens, hstart, hend⟩ := ih hmore
          have hwhole := hopens.append block []
          rw [List.append_nil] at hwhole
          exact ⟨block.length + count, hwhole, by omega, by omega⟩
  | @element number first closing tagLines interior rest outer text remainder inside more hframe
      _ _ ihchildren ihrest =>
      have hlength : (first :: (tagLines ++ (interior ++ closing :: rest))).length =
          tagLines.length + interior.length + rest.length + 2 := by
        simp only [List.length_cons, List.length_append]
        omega
      rw [Node.walkAll, Node.walk, List.cons_append, List.mem_cons, List.mem_append] at hmem
      rw [hlength]
      rcases hmem with hself | hchild | hmore
      · cases hself
        have hopens : OpensAt tag ([] ++ first :: (tagLines ++ (interior ++ closing :: rest))) 0 :=
          .intro hframe.kind hframe.opening
        refine ⟨0, hopens, rfl, ?_⟩
        dsimp only
        omega
      · obtain ⟨count, hopens, hstart, hend⟩ := ihchildren hchild
        have hwhole := hopens.append (first :: tagLines) (closing :: rest)
        refine ⟨(first :: tagLines).length + count, hwhole, ?_, by omega⟩
        rw [hstart, List.length_cons]
        omega
      · obtain ⟨count, hopens, hstart, hend⟩ := ihrest hmore
        have hwhole := hopens.append (first :: (tagLines ++ (interior ++ [closing]))) []
        have hshape : first :: (tagLines ++ (interior ++ [closing])) ++ (rest ++ []) =
            first :: (tagLines ++ (interior ++ closing :: rest)) := by
          simp
        rw [hshape] at hwhole
        refine ⟨_, hwhole, ?_, by omega⟩
        simp only [hstart, List.length_cons, List.length_append, List.length_nil]
        omega

end Parser

namespace Document

/-!
# Searches that come to a line
-/

/-- The search for the closing line of an element of the name comes to a line outside of a
fence. -/
inductive Searches (document : List Line) (name : String) (n : Nat) : Node -> Prop where
  | element {tag : Tag} {children : List Node} {position : Position} {tagEnd : Nat}
      {remainder : List Char} : tag.name = name ->
      TagAt document tag position.startLine tagEnd remainder -> tagEnd < n ->
      n < position.endLine -> Fence.scan none ((document.take (n - 1)).drop tagEnd) = none ->
      Searches document name n (.element tag children position)

theorem TagAt.tagEnd_eq {document : List Line} {tag : Tag} {startLine tagEnd last : Nat}
    {remainder behind : List Char} (h : TagAt document tag startLine tagEnd remainder)
    (hother : TagAt document tag startLine last behind) : tagEnd = last := by
  obtain ⟨_, first, rest, after, hdrop, hread, _⟩ := h
  obtain ⟨_, other, others, following, hdropOther, hreadOther, _⟩ := hother
  rw [hdrop] at hdropOther
  cases hdropOther
  rw [hread] at hreadOther
  cases hreadOther
  rfl

/-- No search comes to a line in front of the elements or behind them. -/
theorem not_searches {document block : List Line} {number n : Nat} {nodes : List Node}
    (h : Parser.Laid number block nodes) (hn : n ≤ number ∨ number + block.length ≤ n)
    {name : String} {node : Node} (hnode : node ∈ Node.walkAll nodes) :
    ¬ Searches document name n node := by
  rintro ⟨_, htag, hbehind, hend, _⟩
  obtain ⟨count, _, hstart, hlast⟩ := h.exists_opensAt hnode
  have hspan := htag.left
  omega

theorem window_of_standsAt {document front back : List Line} {number : Nat}
    (h : Parser.StandsAt document (number + 1) (front ++ back)) :
    (document.take (number + front.length)).drop number = front := by
  obtain ⟨before, after, rfl, hnumber⟩ := h
  cases hnumber
  rw [List.append_assoc, ← List.append_assoc, ← List.length_append, List.take_left, List.drop_left]

theorem searches_frame_iff {document : List Line} {number last : Nat} {first : Line}
    {tagLines front back : List Line} {tag : Tag} {text remainder : List Char} {name : String}
    (hopening : Parser.Opening first tagLines tag text remainder)
    (htag : Parser.StandsAt document number (first :: tagLines))
    (hinside : Parser.StandsAt document (number + tagLines.length + 1) (front ++ back))
    (hlast : number + tagLines.length + 1 + front.length < last) (children : List Node) :
    Searches document name (number + tagLines.length + 1 + front.length)
        (.element tag children ⟨number, last⟩) <->
      tag.name = name ∧ Fence.scan none front = none := by
  have hends := tagAt_of_opening hopening htag
  have hlines : number + tagLines.length + 1 + front.length - 1 =
      number + tagLines.length + front.length := by
    omega
  have hwindow := window_of_standsAt hinside
  constructor
  · rintro ⟨hname, hfound, _, _, hscan⟩
    rw [hfound.tagEnd_eq hends, hlines, hwindow] at hscan
    exact ⟨hname, hscan⟩
  · rintro ⟨hname, hscan⟩
    refine .element hname hends (by omega) hlast ?_
    rw [hlines, hwindow]
    exact hscan

end Document

namespace Parser

/-!
# Lines before and behind a tag
-/

theorem exists_behind {block rest front after : List Line} {line : Line}
    (h : block ++ rest = front ++ line :: after) (hlength : block.length ≤ front.length) :
    exists back, front = block ++ back ∧ rest = back ++ line :: after := by
  have hblock : block <+: front ++ line :: after := ⟨rest, h⟩
  obtain ⟨back, rfl⟩ := List.prefix_of_prefix_length_le hblock (List.prefix_append _ _) hlength
  refine ⟨back, rfl, ?_⟩
  rw [List.append_assoc] at h
  exact List.append_cancel_left h

theorem exists_inside {block rest front after : List Line} {line : Line}
    (h : block ++ rest = front ++ line :: after) (hlength : front.length < block.length) :
    exists back, block = front ++ line :: back ∧ after = back ++ rest := by
  have hblock : front ++ [line] <+: block ++ rest := ⟨after, by rw [h]; simp⟩
  have hshort : (front ++ [line]).length ≤ block.length := by
    rw [List.length_append, List.length_singleton]
    exact hlength
  obtain ⟨back, rfl⟩ :=
    List.prefix_of_prefix_length_le hblock (List.prefix_append _ _) hshort
  refine ⟨back, by simp, ?_⟩
  rw [List.append_assoc, List.append_assoc] at h
  exact (List.cons.inj (List.append_cancel_left h)).right.symm

section Frame

variable {start closing line : Line} {tagLines interior rest front after : List Line}

theorem exists_inside_frame
    (h : start :: (tagLines ++ (interior ++ closing :: rest)) = front ++ line :: after)
    (hfirst : tagLines.length < front.length)
    (hlast : front.length < tagLines.length + 1 + interior.length) :
    exists back inner, front = start :: (tagLines ++ back) ∧ interior = back ++ line :: inner ∧
      after = inner ++ closing :: rest := by
  have hwide : (start :: tagLines) ++ (interior ++ closing :: rest) = front ++ line :: after := h
  obtain ⟨back, rfl, hinner⟩ := exists_behind hwide hfirst
  rw [List.length_append, List.length_cons] at hlast
  obtain ⟨inner, rfl, rfl⟩ := exists_inside hinner (by omega)
  exact ⟨back, inner, rfl, rfl, rfl⟩

theorem exists_behind_frame
    (h : start :: (tagLines ++ (interior ++ closing :: rest)) = front ++ line :: after)
    (hfirst : tagLines.length + interior.length + 1 < front.length) :
    exists back, front = start :: (tagLines ++ (interior ++ closing :: back)) ∧
      rest = back ++ line :: after := by
  have hwide : (start :: (tagLines ++ (interior ++ [closing]))) ++ rest =
      front ++ line :: after := by
    rw [← h]
    simp
  have hlength : (start :: (tagLines ++ (interior ++ [closing]))).length ≤ front.length := by
    simp only [List.length_cons, List.length_append, List.length_nil]
    omega
  obtain ⟨back, rfl, hrest⟩ := exists_behind hwide hlength
  exact ⟨back, by simp, hrest⟩

end Frame

end Parser
end LessonPress

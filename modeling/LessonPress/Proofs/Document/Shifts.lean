import LessonPress.Document.Parser
import LessonPress.Proofs.Document.Spelling

/-!
# Lines further down

## Parsing does not depend on where the lines stand

The number of the first line only goes into the positions of the nodes and the line of an
error.  Both move down with it.
-/

namespace LessonPress

open Text

def Position.moved (count : Nat) (position : Position) : Position :=
  ⟨position.startLine + count, position.endLine + count⟩

def ParseError.moved (count : Nat) (cause : ParseError) : ParseError :=
  ⟨cause.line + count, cause.fault⟩

namespace Node

mutual

/-- The node as it stands further down in a document. -/
def moved (count : Nat) : Node -> Node
  | heading depth text position => heading depth text (position.moved count)
  | paragraph text position => paragraph text (position.moved count)
  | html value position => html value (position.moved count)
  | thematicBreak position => thematicBreak (position.moved count)
  | code block => code { block with position := block.position.map (Position.moved count) }
  | element tag children position =>
      element tag (movedAll count children) (position.moved count)
  | diagnostic content => diagnostic content

def movedAll (count : Nat) : List Node -> List Node
  | [] => []
  | node :: rest => node.moved count :: movedAll count rest

end

end Node

def movedResult {alpha : Type} (count : Nat) (move : alpha -> alpha) :
    Except ParseError alpha -> Except ParseError alpha
  | .error cause => .error (cause.moved count)
  | .ok value => .ok (move value)

/-!
# Opening tags
-/

namespace Cursor

def moved (count : Nat) (cursor : Cursor) : Cursor :=
  ⟨cursor.rest, cursor.line + count⟩

theorem skipBlanks_moved (count : Nat) (cursor : Cursor) :
    (cursor.moved count).skipBlanks = cursor.skipBlanks.moved count := by
  unfold skipBlanks moved
  dsimp only
  rw [Nat.add_right_comm]

theorem readValue_moved (count : Nat) (name : String) (cursor : Cursor) :
    readValue name (cursor.moved count) =
      movedResult count (Prod.map id (moved count)) (readValue name cursor) := by
  unfold readValue moved movedResult ParseError.moved
  dsimp only
  cases cursor.rest with
  | nil => rfl
  | cons c rest =>
      dsimp only
      by_cases hquote : c = '"' ∨ c = '\''
      · rw [if_pos hquote, if_pos hquote]
        cases cutAt c rest with
        | none => rfl
        | some cut =>
            dsimp only [Prod.map, id]
            rw [Nat.add_right_comm]
      · rw [if_neg hquote, if_neg hquote]
        by_cases hbrace : c = '\x7b'
        · rw [if_pos hbrace, if_pos hbrace]
          cases readExpression 0 none rest with
          | none =>
              dsimp only
              rw [Nat.add_right_comm]
          | some cut =>
              dsimp only [Prod.map, id]
              rw [Nat.add_right_comm]
        · rw [if_neg hbrace, if_neg hbrace]

theorem readAttribute_moved (count : Nat) (element : String) (cursor : Cursor) :
    readAttribute element (cursor.moved count) =
      movedResult count (Prod.map id (moved count)) (readAttribute element cursor) := by
  unfold readAttribute
  rw [show (cursor.moved count).rest = cursor.rest from rfl,
    show (cursor.moved count).line = cursor.line + count from rfl]
  cases readName cursor.rest with
  | none => rfl
  | some found =>
      obtain ⟨name, rest⟩ := found
      have hskip := skipBlanks_moved count ⟨rest, cursor.line⟩
      unfold moved at hskip
      dsimp only at hskip ⊢
      rw [hskip]
      dsimp only
      split
      · rename_i tail htail
        have hvalue := readValue_moved count (String.ofList name)
          (skipBlanks ⟨tail, (skipBlanks ⟨rest, cursor.line⟩).line⟩)
        rw [← skipBlanks_moved] at hvalue
        rw [show (⟨tail, (skipBlanks ⟨rest, cursor.line⟩).line + count⟩ : Cursor) =
          moved count ⟨tail, (skipBlanks ⟨rest, cursor.line⟩).line⟩ from rfl, hvalue]
        cases readValue (String.ofList name)
          (skipBlanks ⟨tail, (skipBlanks ⟨rest, cursor.line⟩).line⟩) <;> rfl
      · rfl

theorem readAttributes_moved (count : Nat) (element : String) (firstLine : Nat)
    (cursor : Cursor) :
    readAttributes element (firstLine + count) (cursor.moved count) =
      movedResult count (Prod.map id (Prod.map id (moved count)))
        (readAttributes element firstLine cursor) := by
  have hrest : forall cursor : Cursor,
      (cursor.moved count).skipBlanks.rest = cursor.skipBlanks.rest := by
    intro cursor
    rw [skipBlanks_moved]
    rfl
  have hline : forall cursor : Cursor,
      (cursor.moved count).skipBlanks.line = cursor.skipBlanks.line + count := by
    intro cursor
    rw [skipBlanks_moved]
    rfl
  fun_induction readAttributes element firstLine cursor with
  | case1 cursor hnone =>
      rw [readAttributes]
      simp only [hrest, hnone]
      rfl
  | case2 cursor rest hmarks =>
      rw [readAttributes]
      simp only [hrest, hmarks, hline]
      rfl
  | case3 cursor rest hslash hmark =>
      rw [readAttributes]
      simp only [hrest, hmark, hline]
      rw [Nat.add_right_comm]
      rfl
  | case4 cursor rest hmark =>
      rw [readAttributes]
      simp only [hrest, hmark, hline]
      rfl
  | case5 cursor c tail hboth hslash hclose hfirst cause hentry =>
      rw [readAttributes_cons element _ ((hrest cursor).trans hfirst) hslash hclose,
        skipBlanks_moved, readAttribute_moved, hentry]
      rfl
  | case6 cursor c tail hboth hslash hclose hfirst entry next hentry cause hread ih =>
      rw [readAttributes_cons element _ ((hrest cursor).trans hfirst) hslash hclose,
        skipBlanks_moved, readAttribute_moved, hentry]
      dsimp only [movedResult, Prod.map, id]
      rw [ih, hread]
      rfl
  | case7 cursor c tail hboth hslash hclose hfirst entry next hentry entries selfClosing after
      hread ih =>
      rw [readAttributes_cons element _ ((hrest cursor).trans hfirst) hslash hclose,
        skipBlanks_moved, readAttribute_moved, hentry]
      dsimp only [movedResult, Prod.map, id]
      rw [ih, hread]
      rfl

theorem readTag_moved (count : Nat) (cursor : Cursor) :
    readTag (cursor.moved count) =
      movedResult count (Prod.map id (moved count)) (readTag cursor) := by
  have hread := readAttributes_moved count (String.ofList (cursor.rest.takeWhile isNamePart))
    cursor.line ⟨cursor.rest.dropWhile isNamePart, cursor.line⟩
  unfold moved at hread
  unfold readTag moved
  dsimp only at hread ⊢
  rw [hread]
  cases readAttributes (String.ofList (cursor.rest.takeWhile isNamePart)) cursor.line
    ⟨cursor.rest.dropWhile isNamePart, cursor.line⟩ <;> rfl

end Cursor

namespace Parser

/-!
# Elements
-/

theorem movedAll_inlineChildren (count : Nat) (text : List Char) (line : Nat) :
    Node.movedAll count (inlineChildren text line) = inlineChildren text (line + count) := by
  unfold inlineChildren
  split <;> rfl

def Extent.moved (count : Nat) : Extent -> Extent
  | ⟨tag, tagLines, .inl children⟩ => ⟨tag, tagLines, .inl (Node.movedAll count children)⟩
  | ⟨tag, tagLines, .inr length⟩ => ⟨tag, tagLines, .inr length⟩

theorem readExtent_moved (count number : Nat) (first : Line) (rest : List Line) :
    readExtent (number + count) first rest =
      movedResult count (Extent.moved count) (readExtent number first rest) := by
  have hread := Cursor.readTag_moved count
    ⟨(joinLines (trimStart first :: rest)).drop 1, number⟩
  unfold Cursor.moved at hread
  unfold readExtent
  dsimp only at hread ⊢
  rw [hread]
  cases Cursor.readTag ⟨(joinLines (trimStart first :: rest)).drop 1, number⟩ with
  | error cause => rfl
  | ok found =>
      obtain ⟨tag, cursor⟩ := found
      dsimp only [movedResult, Prod.map, id, Cursor.moved]
      rw [Nat.add_sub_add_right]
      split
      · split <;> rfl
      · split
        · split
          · rfl
          · rw [← movedAll_inlineChildren]
            rfl
        · split <;> rfl

/-!
# Blocks
-/

theorem bind_cons_moved (count : Nat) (node : Node) (rest : Except ParseError (List Node)) :
    (do
      let more ← movedResult count (Node.movedAll count) rest
      .ok (node.moved count :: more)) =
    movedResult count (Node.movedAll count) (do
      let more ← rest
      .ok (node :: more)) := by
  cases rest with
  | error cause => rfl
  | ok more =>
      change Except.ok _ = Except.ok _
      rw [Node.movedAll]

theorem moved_codeNode (count number : Nat) (fence : Fence) (body : List Line) :
    (codeNode number fence body).moved count = codeNode (number + count) fence body := by
  have hend : number + body.length + 1 + count = number + count + body.length + 1 := by
    omega
  unfold codeNode
  rw [Node.moved, Option.map_some, Position.moved, hend]

theorem moved_span (count number : Nat) (first : Line) (body : List Line) :
    (⟨number, number + (first :: body).length - 1⟩ : Position).moved count =
      ⟨number + count, number + count + (first :: body).length - 1⟩ := by
  have hend : number + (first :: body).length - 1 + count =
      number + count + (first :: body).length - 1 := by
    rw [List.length_cons]
    omega
  unfold Position.moved
  rw [hend]

theorem parseBlocks_moved (count number : Nat) (block : List Line) :
    parseBlocks (number + count) block =
      movedResult count (Node.movedAll count) (parseBlocks number block) := by
  fun_induction parseBlocks number block with
  | case1 number =>
      rw [parseBlocks]
      rfl
  | case2 number first rest hkind ih =>
      rw [parseBlocks, hkind]
      dsimp only
      rw [Nat.add_right_comm, ih]
  | case3 number first rest fence hkind hlength =>
      rw [parseBlocks, hkind]
      dsimp only
      rw [hlength]
      rfl
  | case4 number first rest fence hkind length hlength ih =>
      rw [parseBlocks, hkind]
      dsimp only
      rw [hlength]
      dsimp only
      rw [show number + count + length + 2 = number + length + 2 + count by omega, ih,
        ← moved_codeNode, bind_cons_moved]
  | case5 number first rest depth title hkind ih =>
      rw [parseBlocks, hkind]
      dsimp only
      rw [Nat.add_right_comm, ih]
      exact bind_cons_moved count (.heading depth (textOf title) (.line number)) _
  | case6 number first rest hkind ih =>
      rw [parseBlocks, hkind]
      dsimp only
      rw [Nat.add_right_comm, ih]
      exact bind_cons_moved count (.thematicBreak (.line number)) _
  | case7 number first rest hkind block ih =>
      rw [parseBlocks, hkind]
      dsimp only
      rw [Nat.add_right_comm, ih, ← bind_cons_moved]
      unfold htmlNode
      rw [Node.moved, moved_span]
  | case8 number first rest hkind block ih =>
      rw [parseBlocks, hkind]
      dsimp only
      rw [Nat.add_right_comm, ih, ← bind_cons_moved]
      unfold paragraphNode
      rw [Node.moved, moved_span]
  | case9 number first rest hkind cause hextent =>
      rw [parseBlocks, hkind]
      dsimp only
      rw [readExtent_moved, hextent]
      rfl
  | case10 number first rest hkind tag tagLines children hextent ih =>
      have hmoved := readExtent_moved count number first rest
      rw [hextent] at hmoved
      dsimp only [movedResult, Extent.moved] at hmoved
      rw [parseBlocks, hkind]
      dsimp only
      rw [hmoved]
      dsimp only
      rw [show number + count + tagLines + 1 = number + tagLines + 1 + count by omega, ih,
        show number + count + tagLines = number + tagLines + count by omega]
      exact bind_cons_moved count (.element tag children ⟨number, _⟩) _
  | case11 number first rest hkind tag tagLines length hextent ihchildren ihmore =>
      have hmoved := readExtent_moved count number first rest
      rw [hextent] at hmoved
      dsimp only [movedResult, Extent.moved] at hmoved
      rw [parseBlocks, hkind]
      dsimp only
      rw [hmoved]
      dsimp only
      rw [show number + count + tagLines + 1 = number + tagLines + 1 + count by omega, ihchildren,
        show number + count + tagLines + length + 2 = number + tagLines + length + 2 + count by
          omega, ihmore]
      cases parseBlocks (number + tagLines + 1) ((rest.drop tagLines).take length) with
      | error cause => rfl
      | ok children =>
          have hend : number + count + tagLines + length + 1 =
              number + tagLines + length + 1 + count := by
            omega
          rw [hend]
          exact bind_cons_moved count (.element tag children ⟨number, _⟩) _

end Parser
end LessonPress

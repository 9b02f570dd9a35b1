import LessonPress.Document.Parser

/-!
# Blocks of a document

## How some lines come apart into nodes

A successful parse is a chain of blocks: the kind of the first line settles which lines
belong to the first node, and the rest is parsed in the same way.  What holds of every node
that a parse yields follows by induction on this chain.
-/

namespace LessonPress
namespace Parser

open Text

inductive Parses : Nat -> List Line -> List Node -> Prop where
  | nil {number : Nat} : Parses number [] []
  | blank {number : Nat} {first : Line} {rest : List Line} {nodes : List Node} :
      LineKind.of first = .blank -> Parses (number + 1) rest nodes ->
      Parses number (first :: rest) nodes
  | fence {number count : Nat} {first : Line} {rest : List Line} {fence : Fence}
      {more : List Node} : LineKind.of first = .fence fence ->
      fence.bodyLength rest = some count ->
      Parses (number + count + 2) (rest.drop (count + 1)) more ->
      Parses number (first :: rest) (codeNode number fence (rest.take count) :: more)
  | heading {number depth : Nat} {first title : Line} {rest : List Line} {more : List Node} :
      LineKind.of first = .heading depth title -> Parses (number + 1) rest more ->
      Parses number (first :: rest) (.heading depth (textOf title) (.line number) :: more)
  | thematicBreak {number : Nat} {first : Line} {rest : List Line} {more : List Node} :
      LineKind.of first = .thematicBreak -> Parses (number + 1) rest more ->
      Parses number (first :: rest) (.thematicBreak (.line number) :: more)
  | html {number : Nat} {first : Line} {rest : List Line} {more : List Node} :
      LineKind.of first = .html ->
      Parses (number + (rest.takeWhile isFilled).length + 1)
        (rest.drop (rest.takeWhile isFilled).length) more ->
      Parses number (first :: rest)
        (htmlNode number (first :: rest.takeWhile isFilled) :: more)
  | text {number : Nat} {first : Line} {rest : List Line} {more : List Node} :
      LineKind.of first = .text ->
      Parses (number + (rest.takeWhile LineKind.continuesParagraph).length + 1)
        (rest.drop (rest.takeWhile LineKind.continuesParagraph).length) more ->
      Parses number (first :: rest)
        (paragraphNode number (first :: rest.takeWhile LineKind.continuesParagraph) :: more)
  | closedElement {number tagLines : Nat} {first : Line} {rest : List Line} {tag : Tag}
      {children more : List Node} : LineKind.of first = .element ->
      readExtent number first rest = .ok ⟨tag, tagLines, .inl children⟩ ->
      Parses (number + tagLines + 1) (rest.drop tagLines) more ->
      Parses number (first :: rest)
        (.element tag children ⟨number, number + tagLines⟩ :: more)
  | openElement {number tagLines count : Nat} {first : Line} {rest : List Line} {tag : Tag}
      {children more : List Node} : LineKind.of first = .element ->
      readExtent number first rest = .ok ⟨tag, tagLines, .inr count⟩ ->
      Parses (number + tagLines + 1) ((rest.drop tagLines).take count) children ->
      Parses (number + tagLines + count + 2) (rest.drop (tagLines + count + 1)) more ->
      Parses number (first :: rest)
        (.element tag children ⟨number, number + tagLines + count + 1⟩ :: more)

theorem parseBlocks_of_parses {number : Nat} {block : List Line} {nodes : List Node}
    (h : Parses number block nodes) : parseBlocks number block = .ok nodes := by
  induction h with
  | nil => rw [parseBlocks]
  | blank hkind _ ih =>
      rw [parseBlocks, hkind]
      exact ih
  | fence hkind hlength _ ih =>
      rw [parseBlocks, hkind]
      dsimp only
      rw [hlength]
      dsimp only
      rw [ih]
      rfl
  | heading hkind _ ih =>
      rw [parseBlocks, hkind]
      dsimp only
      rw [ih]
      rfl
  | thematicBreak hkind _ ih =>
      rw [parseBlocks, hkind]
      dsimp only
      rw [ih]
      rfl
  | html hkind _ ih =>
      rw [parseBlocks, hkind]
      simp only [List.length_cons, Nat.add_sub_cancel, ← Nat.add_assoc]
      rw [ih]
      rfl
  | text hkind _ ih =>
      rw [parseBlocks, hkind]
      simp only [List.length_cons, Nat.add_sub_cancel, ← Nat.add_assoc]
      rw [ih]
      rfl
  | closedElement hkind hextent _ ih =>
      rw [parseBlocks, hkind]
      dsimp only
      rw [hextent]
      dsimp only
      rw [ih]
      rfl
  | openElement hkind hextent _ _ ihchildren ihmore =>
      rw [parseBlocks, hkind]
      dsimp only
      rw [hextent]
      dsimp only
      rw [ihchildren, ihmore]
      rfl

theorem ok_of_bind {epsilon alpha beta : Type} {first : Except epsilon alpha}
    {next : alpha -> Except epsilon beta} {result : beta} (h : (first >>= next) = .ok result) :
    exists value, first = .ok value ∧ next value = .ok result := by
  cases first with
  | error cause => cases h
  | ok value => exact ⟨value, rfl, h⟩

theorem parses_of_parseBlocks {number : Nat} {block : List Line} {nodes : List Node}
    (h : parseBlocks number block = .ok nodes) : Parses number block nodes := by
  fun_induction parseBlocks number block generalizing nodes with
  | case1 number =>
      cases h
      exact .nil
  | case2 number first rest hkind ih => exact .blank hkind (ih h)
  | case3 => cases h
  | case4 number first rest fence hkind count hlength ih =>
      obtain ⟨more, hmore, hnodes⟩ := ok_of_bind h
      cases hnodes
      exact .fence hkind hlength (ih hmore)
  | case5 number first rest depth title hkind ih =>
      obtain ⟨more, hmore, hnodes⟩ := ok_of_bind h
      cases hnodes
      exact .heading hkind (ih hmore)
  | case6 number first rest hkind ih =>
      obtain ⟨more, hmore, hnodes⟩ := ok_of_bind h
      cases hnodes
      exact .thematicBreak hkind (ih hmore)
  | case7 number first rest hkind block =>
      rename_i ih
      obtain ⟨more, hmore, hnodes⟩ := ok_of_bind h
      cases hnodes
      exact .html hkind (ih hmore)
  | case8 number first rest hkind block =>
      rename_i ih
      obtain ⟨more, hmore, hnodes⟩ := ok_of_bind h
      cases hnodes
      exact .text hkind (ih hmore)
  | case9 => cases h
  | case10 number first rest hkind tag tagLines children hextent ih =>
      obtain ⟨more, hmore, hnodes⟩ := ok_of_bind h
      cases hnodes
      exact .closedElement hkind hextent (ih hmore)
  | case11 number first rest hkind tag tagLines count hextent ihchildren ihmore =>
      obtain ⟨children, hchildren, hrest⟩ := ok_of_bind h
      obtain ⟨more, hmore, hnodes⟩ := ok_of_bind hrest
      cases hnodes
      exact .openElement hkind hextent (ihchildren hchildren) (ihmore hmore)

theorem children_of_readExtent {number tagLines : Nat} {first : Line} {rest : List Line}
    {tag : Tag} {children : List Node}
    (h : readExtent number first rest = .ok ⟨tag, tagLines, .inl children⟩) :
    children = [] ∨ exists text position, children = [.paragraph text position] := by
  unfold readExtent at h
  split at h
  · cases h
  · rename_i found cursor _
    dsimp only at h
    split at h
    · split at h
      · cases h
        exact Or.inl rfl
      · cases h
    · split at h
      · split at h
        · cases h
        · rename_i inner _
          cases h
          unfold inlineChildren
          split
          · exact Or.inl rfl
          · exact Or.inr ⟨_, _, rfl⟩
      · split at h <;> cases h

end Parser

namespace Document

theorem parse_eq_ok_iff {source : String} {document : Document} :
    parse source = .ok document <->
      exists count, Frontmatter.read (Text.linesOf source) = .ok (document.frontmatter, count) ∧
        Parser.Parses (count + 1) ((Text.linesOf source).drop count) document.children := by
  unfold parse
  dsimp only
  constructor
  · intro h
    split at h
    · cases h
    · rename_i frontmatter count hread
      split at h
      · cases h
      · rename_i children hblocks
        cases h
        exact ⟨count, hread, Parser.parses_of_parseBlocks hblocks⟩
  · rintro ⟨count, hread, hparses⟩
    rw [hread]
    dsimp only
    rw [Parser.parseBlocks_of_parses hparses]

end Document
end LessonPress

import LessonPress.Proofs.Document.Layout
import LessonPress.Proofs.Document.Shifts

/-!
# Parsing across a blank line

## What parses stays as it is when more text follows

A document that parses never looks past its end.  In front of a blank line its nodes are the
same, and the lines behind it parse as they do on their own, only further down.
-/

namespace LessonPress

open Text

namespace Frontmatter

theorem opens_blank {line : Line} (h : isBlankLine line = true) : opens line = false := by
  unfold opens
  rw [(trimEnd_eq_nil_iff line).mpr h]
  rfl

theorem read_of_not_opens {first : Line} (h : opens first = false) (rest : List Line) :
    read (first :: rest) = .ok (.empty, 0) := by
  unfold read
  dsimp only
  rw [h]
  rfl

theorem count_le_length {document : List Line} {values : SortedMap String} {count : Nat}
    (h : read document = .ok (values, count)) : count ≤ document.length := by
  cases document with
  | nil =>
      cases h
      exact Nat.le_refl 0
  | cons first rest =>
      unfold read at h
      dsimp only at h
      by_cases hopens : opens first = true
      · rw [if_pos hopens] at h
        cases hcloses : rest.findIdx? closes with
        | none =>
            rw [hcloses] at h
            cases h
        | some index =>
            have hlength := (List.findIdx?_eq_some_iff_getElem.mp hcloses).choose
            rw [hcloses] at h
            cases h
            rw [List.length_cons]
            omega
      · rw [if_neg hopens] at h
        cases h
        exact Nat.zero_le _

theorem read_front {front back other : List Line} {values : SortedMap String} {count : Nat}
    (h : read (front ++ back) = .ok (values, count)) (hcount : count ≤ front.length)
    (hother : front = [] -> forall line, other.head? = some line -> opens line = false) :
    read (front ++ other) = .ok (values, count) := by
  cases front with
  | nil =>
      have hzero : count = 0 := Nat.le_zero.mp hcount
      subst hzero
      have hempty : values = .empty := by
        unfold read at h
        dsimp only [List.nil_append] at h
        split at h
        · cases h
          rfl
        · split at h
          · split at h <;> cases h
          · cases h
            rfl
      rw [hempty]
      cases other with
      | nil => rfl
      | cons first rest => exact read_of_not_opens (hother rfl first rfl) rest
  | cons first rest =>
      unfold read at h ⊢
      dsimp only [List.cons_append] at h ⊢
      by_cases hopens : opens first = true
      · rw [if_pos hopens, List.findIdx?_append] at h
        rw [if_pos hopens, List.findIdx?_append]
        cases hcloses : rest.findIdx? closes with
        | none =>
            -- the frontmatter would end among the lines behind
            rw [hcloses, Option.none_or] at h
            cases hlater : back.findIdx? closes with
            | none =>
                rw [hlater] at h
                cases h
            | some index =>
                rw [hlater] at h
                cases h
                dsimp only [List.length_cons] at hcount
                omega
        | some index =>
            have hlength := (List.findIdx?_eq_some_iff_getElem.mp hcloses).choose
            rw [hcloses] at h
            cases h
            dsimp only [Option.some_or]
            rw [List.take_append_of_le_length (Nat.le_of_lt hlength),
              List.take_append_of_le_length (Nat.le_of_lt hlength)]
      · rw [if_neg hopens] at h
        cases h
        exact if_neg hopens

theorem read_append {front more : List Line} {values : SortedMap String} {count : Nat}
    (h : read front = .ok (values, count))
    (hmore : forall line, more.head? = some line -> isBlankLine line = true) :
    read (front ++ more) = .ok (values, count) := by
  have hcount := count_le_length h
  rw [← List.append_nil front] at h
  exact read_front h hcount fun _ line hline => opens_blank (hmore line hline)

end Frontmatter

namespace Document

theorem exists_laid {source : String} {document : Document} (h : parse source = .ok document) :
    exists count, Frontmatter.read (linesOf source) = .ok (document.frontmatter, count) ∧
      Parser.Laid (count + 1) ((linesOf source).drop count) document.children := by
  obtain ⟨count, hread, hparses⟩ := parse_eq_ok_iff.mp h
  refine ⟨count, hread, Parser.laid_of_parses hparses fun line hline => ?_⟩
  exact feed_not_mem_of_mem_linesOf (List.mem_of_mem_drop hline)

theorem parse_of_read {source : String} {values : SortedMap String} {count : Nat}
    (h : Frontmatter.read (linesOf source) = .ok (values, count)) :
    parse source =
      (Parser.parseBlocks (count + 1) ((linesOf source).drop count)).map (Document.mk values) := by
  unfold parse
  dsimp only
  rw [h]
  dsimp only
  cases Parser.parseBlocks (count + 1) ((linesOf source).drop count) <;> rfl

theorem parse_blank {source : String} {first : Line} {rest : List Line}
    (hsource : linesOf source = first :: rest) (hfirst : isBlankLine first = true) :
    parse source = (Parser.parseBlocks 2 rest).map (Document.mk .empty) := by
  have hread : Frontmatter.read (linesOf source) = .ok (.empty, 0) := by
    rw [hsource]
    exact Frontmatter.read_of_not_opens (Frontmatter.opens_blank hfirst) rest
  have hblocks := Parser.parseBlocks_blank hfirst (0 + 1) rest
  rw [parse_of_read hread, hsource, List.drop_zero, hblocks]

/-- A text across a blank line is parsed on either side of it. -/
theorem parse_across {front behind whole : String} {document : Document} {first blank : Line}
    {rest : List Line} (hfront : parse front = .ok document)
    (hbehind : linesOf behind = first :: rest) (hfirst : isBlankLine first = true)
    (hwhole : linesOf whole = linesOf front ++ blank :: rest) (hblank : isBlankLine blank = true) :
    parse whole =
      match parse behind with
      | .error cause => .error (cause.moved (linesOf front).length)
      | .ok body => .ok ⟨document.frontmatter,
          document.children ++ Node.movedAll (linesOf front).length body.children⟩ := by
  obtain ⟨count, hread, hlaid⟩ := exists_laid hfront
  have hmore : forall line, (blank :: rest).head? = some line -> isBlankLine line = true := by
    rintro line ⟨⟩
    exact hblank
  have hcount := Frontmatter.count_le_length hread
  have hreads := Frontmatter.read_append hread hmore
  have hnumber : count + 1 + ((linesOf front).drop count).length + 1 =
      2 + (linesOf front).length := by
    rw [List.length_drop]
    omega
  have hblocks := hlaid.parseBlocks_append hmore
  rw [Parser.parseBlocks_blank hblank, hnumber,
    Parser.parseBlocks_moved (linesOf front).length 2] at hblocks
  rw [← hwhole] at hreads
  rw [parse_blank hbehind hfirst, parse_of_read hreads, hwhole,
    List.drop_append_of_le_length hcount, hblocks]
  cases Parser.parseBlocks 2 rest <;> rfl

set_option maxRecDepth 10000 in
theorem parse_across_element :
    parse "---\na: b\n---\n<B/>" =
      .ok ⟨.ofList [("a", "b")], [.element ⟨"B", [], true⟩ [] ⟨4, 4⟩]⟩ ∧
    parse "\nmore" = .ok ⟨.empty, [.paragraph "more" ⟨2, 2⟩]⟩ ∧
    parse "---\na: b\n---\n<B/>\n \nmore" =
      .ok ⟨.ofList [("a", "b")],
        [.element ⟨"B", [], true⟩ [] ⟨4, 4⟩, .paragraph "more" ⟨6, 6⟩]⟩ := by
  have hbehind : parse "\nmore" = .ok ⟨.empty, [.paragraph "more" ⟨2, 2⟩]⟩ := by
    cbv
  have hlines : linesOf "\nmore" = [] :: [['m', 'o', 'r', 'e']] := by
    cbv
  have hfrontLines : linesOf "---\na: b\n---\n<B/>" =
      [['-', '-', '-'], ['a', ':', ' ', 'b'], ['-', '-', '-'], ['<', 'B', '/', '>']] := by
    cbv
  have hread : Frontmatter.read (linesOf "---\na: b\n---\n<B/>") =
      .ok (.ofList [("a", "b")], 3) := by
    rw [hfrontLines]
    rfl
  have hblocks : Parser.parseBlocks 4 [['<', 'B', '/', '>']] =
      .ok [.element ⟨"B", [], true⟩ [] ⟨4, 4⟩] := by
    cbv
  have hfront : parse "---\na: b\n---\n<B/>" =
      .ok ⟨.ofList [("a", "b")], [.element ⟨"B", [], true⟩ [] ⟨4, 4⟩]⟩ := by
    rw [parse_of_read hread, hfrontLines]
    exact congrArg (Except.map (Document.mk _)) hblocks
  have hwhole : linesOf "---\na: b\n---\n<B/>\n \nmore" =
      linesOf "---\na: b\n---\n<B/>" ++ [' '] :: [['m', 'o', 'r', 'e']] := by
    rw [hfrontLines]
    cbv
  refine ⟨hfront, hbehind, ?_⟩
  rw [parse_across hfront hlines rfl hwhole rfl, hbehind, hfrontLines]
  rfl

end Document
end LessonPress

import LessonPress.Proofs.Document.Closings
import LessonPress.Proofs.Document.Tiling

/-!
# Wrapping lines in an element

## The search for the closing line sees each line by itself

The search goes over lines that do not mention the name of the element, but it takes every
line outside of a fence that looks like the start of one for that, also in raw markup and in a
tag over several lines.  The wrapped lines keep their nodes exactly if no such fence is open
at their end.
-/

namespace LessonPress

open Text

namespace Parser

/-!
# Lines without the name
-/

namespace Search

variable {name : String} {search : Search} {line : Line}

theorem next?_absent (h : ¬ name.toList <:+: line) :
    search.next? name line = some ⟨search.depth, Fence.next search.fence line⟩ := by
  have hclosing : trim line ≠ closingText name := by
    intro heq
    apply h
    refine List.IsInfix.trans ?_ (infix_trim line)
    rw [heq]
    exact ⟨['<', '/'], ['>'], rfl⟩
  have hnested : opensNested name (trim line) = false := by
    cases hstarts : startsWith (openingText name) (trim line) with
    | false =>
        unfold opensNested
        dsimp only
        rw [hstarts]
        rfl
    | true =>
        obtain ⟨tail, htail⟩ := List.isPrefixOf_iff_prefix.mp hstarts
        refine absurd (List.IsInfix.trans ?_ (infix_trim line)) h
        exact ⟨['<'], tail, htail⟩
  obtain ⟨depth, fence⟩ := search
  cases fence with
  | some fence => exact next?_fenced rfl
  | none =>
      unfold Fence.next
      cases hfence : Fence.ofLine? line with
      | some fence => exact next?_fence rfl hfence
      | none =>
          rw [next?_open rfl hfence hclosing, hnested]
          rfl

theorem after?_absent {block : List Line}
    (h : forall line, line ∈ block -> ¬ name.toList <:+: line) :
    search.after? name block = some ⟨search.depth, Fence.scan search.fence block⟩ := by
  induction block generalizing search with
  | nil => rfl
  | cons line rest ih =>
      rw [after?, next?_absent (h line List.mem_cons_self), Option.bind_some,
        ih fun other hother => h other (List.mem_cons_of_mem _ hother)]
      rfl

end Search

/-!
# Fences that are open behind nodes
-/

theorem scan_none {block : List Line} (h : forall line, line ∈ block -> Fence.ofLine? line = none) :
    Fence.scan none block = none := by
  induction block with
  | nil => rfl
  | cons line rest ih =>
      unfold Fence.scan at ih ⊢
      rw [List.foldl_cons]
      unfold Fence.next
      rw [h line List.mem_cons_self]
      exact ih fun other hother => h other (List.mem_cons_of_mem _ hother)

theorem scan_codeBlock {fence : Fence} {first last : Line} {body : List Line}
    (hfirst : Fence.ofLine? first = some fence)
    (hbody : forall line, line ∈ body -> fence.closes line = false)
    (hlast : fence.closes last = true) : Fence.scan none (first :: (body ++ [last])) = none := by
  have hafter : (⟨0, none⟩ : Search).after? "" (first :: (body ++ [last])) = some ⟨0, none⟩ :=
    Search.after?_codeBlock 0 hfirst hbody hlast
  exact (Search.fence_after? hafter).symm

theorem ofLine?_of_continuesParagraph {line : Line} (h : LineKind.continuesParagraph line = true) :
    Fence.ofLine? line = none := by
  apply LineKind.ofLine?_eq_none
  intro fence hkind
  unfold LineKind.continuesParagraph at h
  rw [hkind] at h
  cases h

theorem exists_of_scan {number : Nat} {first : Line} {body document : List Line}
    (hstands : StandsAt document number (first :: body)) (hfirst : Fence.ofLine? first = none)
    (hscan : Fence.scan none (first :: body) ≠ none) :
    exists n line, number < n ∧ n ≤ number + body.length ∧ document[n - 1]? = some line ∧
      Fence.ofLine? line ≠ none := by
  apply Classical.byContradiction
  intro hnone
  apply hscan
  apply scan_none
  intro line hline
  cases List.mem_cons.mp hline with
  | inl heq => rw [heq, hfirst]
  | inr hmem =>
      obtain ⟨front, back, rfl⟩ := List.append_of_mem hmem
      have hplace : StandsAt document number ((first :: front) ++ line :: back) := hstands
      apply Classical.byContradiction
      intro hfence
      refine hnone ⟨number + (first :: front).length, line, ?_, ?_, hplace.right.getElem?, hfence⟩
      · rw [List.length_cons]
        omega
      · rw [List.length_cons, List.length_append, List.length_cons]
        omega

end Parser

namespace Document

/-- The line goes on with raw markup, or with a tag. -/
inductive Continues (document : List Line) (n : Nat) : Node -> Prop where
  | html {value : String} {position : Position} : position.startLine < n ->
      n ≤ position.endLine -> Continues document n (.html value position)
  | tag {tag : Tag} {children : List Node} {position : Position} {tagEnd : Nat}
      {remainder : List Char} : TagAt document tag position.startLine tagEnd remainder ->
      position.startLine < n -> n ≤ tagEnd ->
      Continues document n (.element tag children position)

/-- A line that goes on with one of the nodes looks like the start of a fence. -/
def Misleading (document : List Line) (nodes : List Node) : Prop :=
  exists n line node, node ∈ nodes ∧ Continues document n node ∧ document[n - 1]? = some line ∧
    Fence.ofLine? line ≠ none

theorem Misleading.tail {document : List Line} {node : Node} {nodes : List Node}
    (h : Misleading document nodes) : Misleading document (node :: nodes) := by
  obtain ⟨n, line, other, hother, hcontinues⟩ := h
  exact ⟨n, line, other, List.mem_cons_of_mem _ hother, hcontinues⟩

theorem misleading_of_leaf {document block : List Line} {number : Nat} {node : Node}
    {goesOn : Line -> Bool} (h : Parser.Leaf number block node goesOn)
    (hstands : Parser.StandsAt document number block) (hscan : Fence.scan none block ≠ none)
    (nodes : List Node) : Misleading document (node :: nodes) := by
  have hfirst : forall {line : Line} {kind : LineKind}, LineKind.of line = kind ->
      (forall fence, kind ≠ .fence fence) -> Fence.ofLine? line = none :=
    fun hkind hother => LineKind.ofLine?_eq_none fun fence => hkind ▸ hother fence
  cases h with
  | fence hkind hbody hlast =>
      exact absurd (Parser.scan_codeBlock (LineKind.ofLine?_of_fence hkind) hbody hlast) hscan
  | heading hkind => exact absurd (hfirst hkind nofun) hscan
  | thematicBreak hkind => exact absurd (hfirst hkind nofun) hscan
  | @html first body hkind hbody =>
      obtain ⟨n, line, hbehind, hlast, hline, hfence⟩ :=
        Parser.exists_of_scan hstands (hfirst hkind nofun) hscan
      exact ⟨n, line, _, List.mem_cons_self, .html hbehind hlast, hline, hfence⟩
  | @text first body hkind hbody =>
      refine absurd (Parser.scan_none ?_) hscan
      intro line hline
      cases List.mem_cons.mp hline with
      | inl heq =>
          rw [heq]
          exact hfirst hkind nofun
      | inr hmem => exact Parser.ofLine?_of_continuesParagraph (hbody line hmem)
  | @element first tagLines tag text remainder children hkind hopening hinline =>
      obtain ⟨n, line, hbehind, hlast, hline, hfence⟩ :=
        Parser.exists_of_scan hstands (hfirst hkind nofun) hscan
      have htag := tagAt_of_opening hopening hstands
      exact ⟨n, line, _, List.mem_cons_self, .tag htag hbehind hlast, hline, hfence⟩

/-- A fence that is open behind some lines but belongs to no code among their nodes starts in raw
markup or in a tag. -/
theorem misleading_of_laid {document block : List Line} {number : Nat} {nodes : List Node}
    (h : Parser.Laid number block nodes) (hstands : Parser.StandsAt document number block)
    (hscan : Fence.scan none block ≠ none) : Misleading document nodes := by
  induction h with
  | nil => exact absurd rfl hscan
  | @blank number first rest nodes hblank _ ih =>
      have hfirst : Fence.ofLine? first = none := by
        apply LineKind.ofLine?_eq_none
        rw [LineKind.of_eq_blank_iff.mpr hblank]
        nofun
      refine ih hstands.tail ?_
      have hone : Fence.scan none [first] = none := hfirst
      rw [← List.singleton_append, Fence.scan_append, hone] at hscan
      exact hscan
  | @leaf number block rest node goesOn nodes hleaf _ _ ih =>
      by_cases hblock : Fence.scan none block = none
      · rw [Fence.scan_append, hblock] at hscan
        exact (ih hstands.right hscan).tail
      · exact misleading_of_leaf hleaf hstands.left hblock nodes
  | @element number first closing tagLines interior rest tag text remainder children nodes hframe
      _ _ _ ihrest =>
      obtain ⟨htagLines, _, _, hrest⟩ := Parser.standsAt_frame hstands
      have hfirst : Fence.ofLine? first = none := by
        apply LineKind.ofLine?_eq_none
        rw [hframe.kind]
        nofun
      by_cases htag : Fence.scan none (first :: tagLines) = none
      · have hinterior : Fence.scan none interior = none :=
          (Parser.Search.fence_after? hframe.found).symm
        refine (ihrest hrest ?_).tail
        rw [← List.cons_append, Fence.scan_append, htag, Fence.scan_append, hinterior,
          ← List.singleton_append, Fence.scan_append,
          Parser.scan_none (by simpa using hframe.noFence)] at hscan
        exact hscan
      · obtain ⟨n, line, hbehind, hlast, hline, hfence⟩ :=
          Parser.exists_of_scan htagLines hfirst htag
        have hopening := tagAt_of_opening hframe.opening htagLines
        exact ⟨n, line, _, List.mem_cons_self, .tag hopening hbehind hlast, hline, hfence⟩

end Document

namespace Parser

/-!
# The wrapped lines
-/

section Wrapped

variable {name : String} {block : List Line} (hname : (⟨name, [], false⟩ : Tag).Printable)
  (habsent : forall line, line ∈ block -> ¬ name.toList <:+: line)
include hname habsent

theorem frame_wrapped (h : Fence.scan none block = none) :
    Frame (Printer.printTag ⟨name, [], false⟩) [] ⟨name, [], false⟩
      (Printer.written [] false []) [] block (closingText name) where
  kind := Printer.of_printTag hname
  opening := opening_printTag hname
  stays := rfl
  blank := rfl
  found := by
    rw [Search.after?_absent habsent]
    unfold Search.start
    rw [h]
  noFence := ofLine?_closingText name
  closes := trimmed_closingText name

theorem readExtent_wrapped {fence : Fence} (h : Fence.scan none block = some fence) :
    readExtent 1 (Printer.printTag ⟨name, [], false⟩) (block ++ [closingText name]) =
      .error ⟨1, .missingClosing name⟩ := by
  have hread := (opening_printTag hname).readExtent_open 1 rfl rfl (block ++ [closingText name])
  have hcloses : fence.closes (closingText name) = false := by
    rcases Fence.exists_of_scan h with hnone | ⟨line, _, hline⟩
    · cases hnone
    · refine Fence.not_closes hline fun c hc => ?_
      rw [show trim (closingText name) = closingText name from trimmed_closingText name] at hc
      cases hc
      decide
  have hsearch : Search.start.after? name block = some ⟨0, some fence⟩ := by
    rw [Search.after?_absent habsent]
    unfold Search.start
    rw [h]
  have hcount : closingIndex name 0 none (block ++ [closingText name]) = none := by
    have hpassed := closingIndex_append hsearch [closingText name]
    rw [closingIndex_cons name ⟨0, some fence⟩, Search.next?_fenced rfl, hcloses] at hpassed
    exact hpassed
  rw [hcount] at hread
  exact hread

end Wrapped

end Parser

namespace Document

/-- Lines that parse behind a blank line are the children of an element around them exactly if
no fence is open at their end.  Such a fence starts in raw markup or in a tag. -/
theorem parse_wrapped {body wrapped name : String} {blank : Line} {block : List Line}
    {document : Document} (hbody : parse body = .ok document)
    (hlines : linesOf body = blank :: block) (hblank : isBlankLine blank = true)
    (hname : exists first rest, name.toList = first :: rest ∧ LineKind.isUpper first = true ∧
      forall c, c ∈ rest -> isNamePart c = true)
    (habsent : forall line, line ∈ block -> ¬ name.toList <:+: line)
    (hwrapped : linesOf wrapped =
      ('<' :: (name.toList ++ ['>'])) :: (block ++ [Parser.closingText name])) :
    (parse wrapped =
      if Fence.scan none block = none then
        .ok ⟨.empty, [.element ⟨name, [], false⟩ document.children ⟨1, block.length + 2⟩]⟩
      else .error ⟨1, .missingClosing name⟩) ∧
    (Fence.scan none block ≠ none -> Misleading (linesOf body) document.children) := by
  have hprintable : (⟨name, [], false⟩ : Tag).Printable :=
    ⟨hname, fun _ hentry => absurd hentry List.not_mem_nil⟩
  have hfirst : '<' :: (name.toList ++ ['>']) = Printer.printTag ⟨name, [], false⟩ := by
    simp [Printer.printTag]
  have hopens : Frontmatter.opens (Printer.printTag ⟨name, [], false⟩) = false := by
    rw [← hfirst]
    apply Frontmatter.opens_of_head
    intro hhead
    cases hhead
  obtain ⟨hblocks, hframed⟩ : Parser.parseBlocks 2 block = .ok document.children ∧
      Parser.StandsAt (linesOf body) 2 block := by
    rw [parse_blank hlines hblank] at hbody
    refine ⟨?_, [blank], [], ?_, rfl⟩
    · cases hchildren : Parser.parseBlocks 2 block with
      | error cause =>
          rw [hchildren] at hbody
          cases hbody
      | ok children =>
          rw [hchildren] at hbody
          cases hbody
          rfl
    · rw [hlines, List.append_nil]
      rfl
  have hlaid : Parser.Laid 2 block document.children :=
    (Parser.laid_iff fun line hline => feed_not_mem_of_mem_linesOf
      (hlines ▸ List.mem_cons_of_mem blank hline)).mpr hblocks
  have hread : Frontmatter.read (linesOf wrapped) = .ok (.empty, 0) := by
    rw [hwrapped, hfirst]
    exact Frontmatter.read_of_not_opens hopens _
  have hwhole := parse_of_read hread
  rw [hwrapped, hfirst, List.drop_zero] at hwhole
  refine ⟨?_, misleading_of_laid hlaid hframed⟩
  rw [hwhole]
  cases hscan : Fence.scan none block with
  | none =>
      have hparse := (Parser.frame_wrapped hprintable habsent hscan).parseBlocks 1 []
      dsimp only [List.nil_append, List.length_nil] at hparse
      rw [show 0 + 1 = 1 from rfl, hparse, hlaid.parseBlocks, Parser.parseBlocks, if_pos rfl,
        show 1 + 0 + block.length + 1 = block.length + 2 by omega]
      rfl
  | some fence =>
      rw [Parser.parseBlocks, Printer.of_printTag hprintable]
      dsimp only
      rw [Parser.readExtent_wrapped hprintable habsent hscan]
      rfl

set_option maxRecDepth 10000 in
theorem parse_wrapped_markup :
    parse "\n```\n</W>\n```\n<p>\n" =
      .ok ⟨.empty, [.code ⟨none, none, "</W>", some ⟨2, 4⟩, none⟩, .html "<p>" ⟨5, 5⟩]⟩ ∧
    parse "<Box>\n```\n</W>\n```\n<p>\n</Box>\n" =
      .ok ⟨.empty, [.element ⟨"Box", [], false⟩
        [.code ⟨none, none, "</W>", some ⟨2, 4⟩, none⟩, .html "<p>" ⟨5, 5⟩] ⟨1, 6⟩]⟩ := by
  have hbody : parse "\n```\n</W>\n```\n<p>\n" =
      .ok ⟨.empty, [.code ⟨none, none, "</W>", some ⟨2, 4⟩, none⟩, .html "<p>" ⟨5, 5⟩]⟩ := by
    cbv
  have hlines : linesOf "\n```\n</W>\n```\n<p>\n" =
      [] :: [['`', '`', '`'], ['<', '/', 'W', '>'], ['`', '`', '`'], ['<', 'p', '>']] := by
    cbv
  have hname : "Box".toList = ['B', 'o', 'x'] := by
    rfl
  have habsent : forall line, line ∈
      [['`', '`', '`'], ['<', '/', 'W', '>'], ['`', '`', '`'], ['<', 'p', '>']] ->
        ¬ "Box".toList <:+: line := by
    rw [hname]
    decide
  have hwrapped : linesOf "<Box>\n```\n</W>\n```\n<p>\n</Box>\n" =
      ('<' :: ("Box".toList ++ ['>'])) ::
        ([['`', '`', '`'], ['<', '/', 'W', '>'], ['`', '`', '`'], ['<', 'p', '>']] ++
          [Parser.closingText "Box"]) := by
    cbv
  have hscan : Fence.scan none
      [['`', '`', '`'], ['<', '/', 'W', '>'], ['`', '`', '`'], ['<', 'p', '>']] = none := by
    decide
  have hparts : forall c, c ∈ ['o', 'x'] -> isNamePart c = true :=
    List.all_eq_true.mp (by decide)
  have hparse := (parse_wrapped hbody hlines rfl ⟨'B', ['o', 'x'], hname, rfl, hparts⟩ habsent
    hwrapped).left
  rw [if_pos hscan] at hparse
  exact ⟨hbody, hparse⟩

set_option maxRecDepth 10000 in
/-- A line of raw markup is taken for the start of a fence, so the element is not closed. -/
theorem parse_wrapped_failure :
    parse "\n<div>\n```\n</div>\n" = .ok ⟨.empty, [.html "<div>\n```\n</div>" ⟨2, 4⟩]⟩ ∧
    (forall line, line ∈ linesOf "\n<div>\n```\n</div>\n" -> 'W' ∉ line) ∧
    parse "<W>\n<div>\n```\n</div>\n</W>\n" = .error ⟨1, .missingClosing "W"⟩ := by
  have hlines : linesOf "\n<div>\n```\n</div>\n" =
      [[], ['<', 'd', 'i', 'v', '>'], ['`', '`', '`'], ['<', '/', 'd', 'i', 'v', '>']] := by
    cbv
  refine ⟨?_, ?_, ?_⟩
  · cbv
  · rw [hlines]
    decide
  · cbv

end Document
end LessonPress

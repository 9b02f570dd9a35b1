import LessonPress.Proofs.Document.Fences
import LessonPress.Proofs.Document.Search
import LessonPress.Proofs.Document.Tags

/-!
# Finding the closing line

## Printed nodes between two tags are passed over as a whole

The search for the line that closes an element comes out of every printed node at the depth
at which it went in.  Code is skipped with its fence, and a nested element of the same name
is counted when it opens and when it closes.
-/

namespace LessonPress

open Text Printer

/-!
# Ends of printed tags
-/

namespace Printer

theorem flatMap_concat (front : List Attribute) (last : Attribute) :
    (front ++ [last]).flatMap printAttribute =
      front.flatMap printAttribute ++ (' ' :: (last.name.toList ++ printValue last.value)) := by
  simp [printAttribute]

variable {run : List Char}

theorem last_slash_run (hrun : forall c, c ∈ run -> isNamePart c = true) (front : List Char)
    {c : Char} (hc : (front ++ '/' :: run).getLast? = some c) : c = '/' ∨ isNamePart c = true := by
  rw [List.getLast?_append, List.getLast?_cons, Option.some_or, Option.some.injEq] at hc
  cases hlast : run.getLast? with
  | none =>
      rw [hlast] at hc
      exact Or.inl hc.symm
  | some last =>
      rw [hlast] at hc
      rw [← hc]
      exact Or.inr (hrun last (List.mem_of_getLast? hlast))

theorem not_slash_run_of_mark (hrun : forall c, c ∈ run -> isNamePart c = true)
    (front text : List Char) {mark : Char} (hslash : mark ≠ '/') (hmark : isNamePart mark = false) :
    text ++ [mark] ≠ front ++ '/' :: run := by
  intro heq
  have hlast := congrArg List.getLast? heq
  rw [List.getLast?_append, List.getLast?_singleton, Option.some_or] at hlast
  cases last_slash_run hrun front hlast.symm with
  | inl heq => exact hslash heq
  | inr hpart =>
      rw [hmark] at hpart
      cases hpart

theorem not_slash_run_of_name (hrun : forall c, c ∈ run -> isNamePart c = true)
    (front text : List Char) {name : List Char} (hname : IsName name) :
    text ++ ' ' :: name ≠ front ++ '/' :: run := by
  intro heq
  rcases List.append_eq_append_iff.mp heq with ⟨between, _, htail⟩ | ⟨between, _, htail⟩
  · have hmem : '/' ∈ ' ' :: name := by
      rw [htail]
      simp
    cases List.mem_cons.mp hmem with
    | inl heq => exact absurd heq (by decide)
    | inr hslash => exact Cursor.not_mem_of_isName (not_name_of_mark '/' (by decide)) hname hslash
  · have hmem : ' ' ∈ '/' :: run := by
      rw [htail]
      simp
    cases List.mem_cons.mp hmem with
    | inl heq => exact absurd heq (by decide)
    | inr hspace => exact Cursor.not_mem_of_named (not_name_of_isBlank (by decide)).left hrun hspace

/-- In front of the end of a printed tag there is no slash with nothing but characters of a
name behind it. -/
theorem not_slash_run {tag : Tag} (h : tag.Printable)
    (hrun : forall c, c ∈ run -> isNamePart c = true) (front : List Char) :
    '<' :: (tag.name.toList ++ tag.attributes.flatMap printAttribute) ≠ front ++ '/' :: run := by
  have hslash := not_name_of_mark '/' (by decide)
  rcases List.eq_nil_or_concat tag.attributes with hnone | ⟨others, last, hlast⟩
  · rw [hnone, List.flatMap_nil, List.append_nil]
    intro heq
    have hmem : '/' ∈ '<' :: tag.name.toList := by
      rw [heq]
      simp
    cases List.mem_cons.mp hmem with
    | inl heq => exact absurd heq (by decide)
    | inr hname =>
        exact Cursor.not_mem_of_named hslash.left
          (fun _ hc => Cursor.isNamePart_of_mem_name h hc) hname
  · have hmem : last ∈ tag.attributes := by
      rw [hlast]
      simp
    obtain ⟨hname, hvalue⟩ := h.attributes last hmem
    rw [hlast, List.concat_eq_append, flatMap_concat]
    rcases last with ⟨name, value⟩
    cases hvalue with
    | @string text _ hquote =>
        have hmark : quoteFor text.toList ≠ '/' ∧ isNamePart (quoteFor text.toList) = false := by
          rcases (Cursor.quoteFor_not_mem hquote).right with heq | heq
          · rw [heq]
            exact ⟨by decide, (not_name_of_mark '"' (by decide)).left⟩
          · rw [heq]
            exact ⟨by decide, (not_name_of_mark '\'' (by decide)).left⟩
        have hends := not_slash_run_of_mark hrun front
          ('<' :: (tag.name.toList ++ (others.flatMap printAttribute ++
            ' ' :: (name.toList ++ '=' :: quoteFor text.toList :: text.toList))))
          hmark.left hmark.right
        simpa [printValue] using hends
    | @expression text _ _ _ =>
        have hends := not_slash_run_of_mark hrun front
          ('<' :: (tag.name.toList ++ (others.flatMap printAttribute ++
            ' ' :: (name.toList ++ '=' :: '\x7b' :: text.toList))))
          (by decide) (not_name_of_mark '\x7d' (by decide)).left
        simpa [printValue] using hends
    | bare =>
        have hends := not_slash_run_of_name hrun front
          ('<' :: (tag.name.toList ++ others.flatMap printAttribute)) hname
        simpa [printValue] using hends

/-!
# Lines between two tags
-/

theorem printTag_open {tag : Tag} (hopen : tag.selfClosing = false) :
    printTag tag = '<' :: (tag.name.toList ++ tag.attributes.flatMap printAttribute) ++ ['>'] := by
  unfold printTag
  rw [hopen]
  rfl

theorem suffix_of_endsWith (ending : List Char) {text : List Char} {last : Char}
    (h : endsWith (ending ++ [last]) (text ++ [last]) = true) : ending <:+ text := by
  obtain ⟨front, hfront⟩ := List.isSuffixOf_iff_suffix.mp h
  rw [← List.append_assoc] at hfront
  exact ⟨front, List.append_cancel_right hfront⟩

theorem not_endsWith_printTag {tag : Tag} (h : tag.Printable) (hopen : tag.selfClosing = false)
    {name : String} (hname : forall c, c ∈ name.toList -> isNamePart c = true) :
    endsWith ['/', '>'] (printTag tag) = false ∧
      endsWith (Parser.closingText name) (printTag tag) = false := by
  rw [printTag_open hopen]
  constructor
  · rw [Bool.eq_false_iff]
    intro hends
    obtain ⟨front, hfront⟩ := suffix_of_endsWith ['/'] hends
    have hnone : forall c, c ∈ ([] : List Char) -> isNamePart c = true := nofun
    exact not_slash_run h hnone front hfront.symm
  · rw [Bool.eq_false_iff]
    intro hends
    obtain ⟨front, hfront⟩ := suffix_of_endsWith (['<', '/'] ++ name.toList) hends
    refine not_slash_run h hname (front ++ ['<']) ?_
    rw [← hfront]
    simp

end Printer
namespace Parser

/-!
# Passing lines
-/

def Passes (name : String) (block : List Line) : Prop :=
  forall depth rest, closingIndex name depth none (block ++ rest) =
    (closingIndex name depth none rest).map (· + block.length)

namespace Passes

variable {name : String} {block others : List Line}

theorem of_after?
    (h : forall depth, (⟨depth, none⟩ : Search).after? name block = some ⟨depth, none⟩) :
    Passes name block :=
  fun depth rest => closingIndex_append (h depth) rest

theorem nil (name : String) : Passes name [] :=
  .of_after? fun _ => rfl

theorem append (h : Passes name block) (hothers : Passes name others) :
    Passes name (block ++ others) := by
  intro depth rest
  rw [List.append_assoc, h, hothers, Option.map_map, List.length_append]
  congr 1
  funext count
  dsimp only [Function.comp]
  omega

theorem line {line : Line} (hfence : Fence.ofLine? line = none)
    (hclosing : trim line ≠ closingText name) (hopening : opensNested name (trim line) = false) :
    Passes name [line] := by
  apply Passes.of_after?
  intro depth
  rw [Search.after?_singleton, Search.next?_open rfl hfence hclosing, hopening,
    if_neg Bool.false_ne_true]

theorem plain {line : Line} (hfence : Fence.ofLine? line = none)
    (hhead : (trim line).head? ≠ some '<') : Passes name [line] :=
  let ⟨hclosing, hopening⟩ := Search.not_tag_of_head name hhead
  Passes.line hfence hclosing hopening

theorem lines {block : List Line} (h : forall line, line ∈ block -> Passes name [line]) :
    Passes name block := by
  induction block with
  | nil => exact .nil name
  | cons line rest ih =>
      have hline := h line List.mem_cons_self
      have hrest := ih fun other hother => h other (List.mem_cons_of_mem _ hother)
      exact hline.append hrest

theorem fenced {fence : Fence} {first last : Line} {body : List Line}
    (hfirst : Fence.ofLine? first = some fence)
    (hbody : forall line, line ∈ body -> fence.closes line = false)
    (hlast : fence.closes last = true) : Passes name (first :: body ++ [last]) :=
  .of_after? fun depth => Search.after?_codeBlock depth hfirst hbody hlast

end Passes

/-!
# Passing printed elements
-/

theorem trimmed_closingText (name : String) : Trimmed (closingText name) := by
  apply trimmed_of_ends
  · intro c hc
    cases hc
    decide
  · intro c hc
    have hlast : (closingText name).getLast? = some '>' := by
      unfold closingText
      rw [List.getLast?_append]
      rfl
    rw [hlast] at hc
    cases hc
    decide

theorem ofLine?_closingText (name : String) : Fence.ofLine? (closingText name) = none :=
  Fence.ofLine?_cons (by decide) (by decide) (by decide) _

theorem closingText_injective {name other : String} (h : closingText name = closingText other) :
    name = other := by
  unfold closingText at h
  exact String.toList_injective (List.append_cancel_left (List.append_cancel_right h))

theorem closingIndex_closingText (name : String) (depth : Nat) (rest : List Line) :
    closingIndex name depth none (closingText name :: rest) =
      match depth with
      | 0 => some 0
      | depth + 1 => (closingIndex name depth none rest).map (· + 1) := by
  have htrim : trim (closingText name) = closingText name := trimmed_closingText name
  rw [closingIndex_cons name ⟨depth, none⟩]
  unfold Search.next?
  dsimp only
  rw [ofLine?_closingText]
  dsimp only
  rw [if_pos htrim]
  cases depth <;> rfl

theorem trim_printTag_ne_closingText {tag : Tag} (h : tag.Printable) (name : String) :
    trim (printTag tag) ≠ closingText name := by
  obtain ⟨c, rest, htag, hupper⟩ := exists_printTag h
  have htrim : trim (printTag tag) = printTag tag := trimmed_printTag h
  rw [htrim, htag]
  intro heq
  have hslash : c = '/' := (List.cons.inj (List.cons.inj heq).right).left
  rw [hslash] at hupper
  exact absurd hupper (by decide)

theorem name_eq_of_append {name other : String} {tail back : List Char}
    (hname : forall c, c ∈ name.toList -> isNamePart c = true)
    (hother : forall c, c ∈ other.toList -> isNamePart c = true)
    (htail : forall c, tail.head? = some c -> isNamePart c = false)
    (hback : forall c, back.head? = some c -> isNamePart c = false)
    (h : name.toList ++ tail = other.toList ++ back) : name = other := by
  have hown := (takeWhile_append hname tail htail).left
  rw [h, (takeWhile_append hother back hback).left] at hown
  exact String.toList_injective hown.symm

theorem Opening.opensNested_other {outer : String} {first : Line} {more : List Line} {tag : Tag}
    {text remainder : List Char} (h : Opening first more tag text remainder)
    (houter : forall c, c ∈ outer.toList -> isNamePart c = true) (hname : tag.name ≠ outer) :
    opensNested outer (trim first) = false := by
  unfold opensNested
  dsimp only
  cases hstarts : startsWith (openingText outer) (trim first) with
  | false => simp
  | true =>
      obtain ⟨tail, htail⟩ := List.isPrefixOf_iff_prefix.mp hstarts
      have hdrop : (trim first).drop (openingText outer).length = tail := by
        rw [← htail]
        exact List.drop_left
      rw [hdrop]
      cases tail with
      | nil => simp
      | cons c following =>
          have hc : ¬ (isBlank c = true ∨ c = '>') := by
            intro hends
            obtain ⟨back, hback, hapart⟩ := h.exists_first
            obtain ⟨behind, hbehind⟩ := prefix_trim first
            rw [← htail, hback] at hbehind
            have hnames : outer.toList ++ c :: (following ++ behind) = tag.name.toList ++ back := by
              rw [← List.cons_append, ← List.append_assoc]
              exact (List.cons.inj hbehind).right
            have hpart : isNamePart c = false := by
              cases hends with
              | inl hblank => exact (not_name_of_isBlank hblank).left
              | inr heq =>
                  rw [heq]
                  exact (not_name_of_mark '>' (by decide)).left
            refine hname (name_eq_of_append houter h.named ?_ hapart hnames).symm
            rintro d ⟨⟩
            exact hpart
          simp only [not_or, Bool.not_eq_true] at hc
          simp [hc]

section Elements

variable {outer tag : Tag} (houter : outer.Printable) (h : tag.Printable)
include houter

theorem opensNested_closingText (name : String) :
    opensNested outer.name (closingText name) = false := by
  obtain ⟨first, rest, hname, hupper, _⟩ := houter.name
  have hstarts : startsWith (openingText outer.name) (closingText name) = false := by
    rw [Bool.eq_false_iff]
    intro hprefix
    obtain ⟨tail, htail⟩ := List.isPrefixOf_iff_prefix.mp hprefix
    unfold openingText closingText at htail
    rw [hname] at htail
    have hslash : first = '/' := (List.cons.inj (List.cons.inj htail).right).left
    rw [hslash] at hupper
    exact absurd hupper (by decide)
  unfold opensNested
  dsimp only
  rw [hstarts]
  rfl

include h

theorem opensNested_same (hopen : tag.selfClosing = false) (hname : tag.name = outer.name) :
    opensNested outer.name (printTag tag) = true := by
  obtain ⟨hslash, hclosing⟩ := not_endsWith_printTag h hopen
    fun c hc => Cursor.isNamePart_of_mem_name houter hc
  have hprint := Cursor.printTag_eq tag []
  rw [List.append_nil, hname] at hprint
  have hstarts : startsWith (openingText outer.name) (printTag tag) = true :=
    List.isPrefixOf_iff_prefix.mpr ⟨_, hprint.symm⟩
  have hdrop : (printTag tag).drop (openingText outer.name).length =
      written tag.attributes tag.selfClosing [] := by
    rw [hprint]
    exact List.drop_left
  have hfollows : exists c following, written tag.attributes tag.selfClosing [] =
      c :: following ∧ (isBlank c || c == '>') = true := by
    cases head?_written tag.selfClosing [] tag.attributes with
    | inl hspace =>
        obtain ⟨following, htail⟩ := List.head?_eq_some_iff.mp hspace
        exact ⟨' ', following, htail, by decide⟩
    | inr hend =>
        obtain ⟨following, htail⟩ := List.head?_eq_some_iff.mp hend
        exact ⟨'>', following, htail, by decide⟩
  obtain ⟨c, following, htail, hc⟩ := hfollows
  unfold opensNested
  dsimp only
  rw [hslash, hclosing, hstarts, hdrop, htail]
  simp [hc]

omit houter h in
theorem opensNested_selfClosing (name : String) (hclosing : tag.selfClosing = true) :
    opensNested name (printTag tag) = false := by
  have hends : endsWith ['/', '>'] (printTag tag) = true := by
    refine List.isSuffixOf_iff_suffix.mpr ⟨'<' :: tag.name.toList ++
      tag.attributes.flatMap printAttribute ++ [' '], ?_⟩
    unfold printTag
    rw [hclosing]
    simp
  unfold opensNested
  dsimp only
  rw [hends]
  simp

theorem opensNested_printTag :
    opensNested outer.name (printTag tag) = (!tag.selfClosing && tag.name == outer.name) := by
  cases hclosing : tag.selfClosing with
  | true => rw [opensNested_selfClosing outer.name hclosing, Bool.not_true, Bool.false_and]
  | false =>
      rw [Bool.not_false, Bool.true_and]
      by_cases hname : tag.name = outer.name
      · rw [opensNested_same houter h hclosing hname, beq_iff_eq.mpr hname]
      · have hother := (opening_printTag h).opensNested_other
          (fun c hc => Cursor.isNamePart_of_mem_name houter hc) hname
        rw [show trim (printTag tag) = printTag tag from trimmed_printTag h] at hother
        rw [hother, beq_eq_false_iff_ne.mpr hname]

theorem passes_printTag (hopens : (!tag.selfClosing && tag.name == outer.name) = false) :
    Passes outer.name [printTag tag] := by
  have htrim : trim (printTag tag) = printTag tag := trimmed_printTag h
  refine .line (ofLine?_printTag h) (trim_printTag_ne_closingText h _) ?_
  rw [htrim, opensNested_printTag houter h, hopens]

theorem passes_same (hopen : tag.selfClosing = false) (hname : tag.name = outer.name)
    {block : List Line} (hblock : Passes outer.name block) :
    Passes outer.name (printTag tag :: block ++ [printClosing tag]) := by
  have htrim : trim (printTag tag) = printTag tag := trimmed_printTag h
  have hopens : opensNested outer.name (printTag tag) = true := by
    rw [opensNested_printTag houter h, hopen, hname, beq_self_eq_true]
    rfl
  have hclosing : printClosing tag = closingText outer.name := by
    rw [← hname]
    rfl
  intro depth rest
  rw [List.cons_append, List.cons_append, List.append_assoc, List.singleton_append,
    closingIndex_cons outer.name ⟨depth, none⟩,
    Search.next?_open rfl (ofLine?_printTag h) (trim_printTag_ne_closingText h _), htrim, hopens,
    if_pos rfl]
  dsimp only
  rw [hblock, hclosing, closingIndex_closingText, Option.map_map, Option.map_map]
  congr 1
  funext count
  simp
  omega

theorem passes_other (hname : tag.name ≠ outer.name) {block : List Line}
    (hblock : Passes outer.name block) :
    Passes outer.name (printTag tag :: block ++ [printClosing tag]) := by
  have htag : Passes outer.name [printTag tag] := by
    apply passes_printTag houter h
    rw [beq_eq_false_iff_ne.mpr hname, Bool.and_false]
  have htrim : trim (closingText tag.name) = closingText tag.name := trimmed_closingText tag.name
  have hclosing : Passes outer.name [printClosing tag] := by
    refine .line (ofLine?_closingText tag.name) ?_ ?_
    · rw [show trim (printClosing tag) = closingText tag.name from htrim]
      exact fun heq => hname (closingText_injective heq)
    · rw [show trim (printClosing tag) = closingText tag.name from htrim]
      exact opensNested_closingText houter tag.name
  exact htag.append (hblock.append hclosing)

theorem passes_element {children : List Node} (position : Position)
    (hchildren : Passes outer.name (printNodes children)) :
    Passes outer.name (printNode (.element tag children position)) := by
  rw [printNode]
  cases hclosing : tag.selfClosing with
  | true =>
      rw [if_pos rfl]
      apply passes_printTag houter h
      rw [hclosing]
      rfl
  | false =>
      rw [if_neg Bool.false_ne_true]
      by_cases hname : tag.name = outer.name
      · exact passes_same houter h hclosing hname hchildren
      · exact passes_other houter h hname hchildren

end Elements

theorem passes_prose {name : String} {line : Line} (h : Prose line) : Passes name [line] := by
  have htrim : trim line = line := h.trimmed
  apply Passes.plain h.noFence
  rw [htrim]
  exact h.noTag

theorem passes_heading {name : String} {depth : Nat} {text : String} (hpositive : 1 ≤ depth)
    (htrimmed : Trimmed text.toList) : Passes name [printHeading depth text] := by
  have htrim : trim (printHeading depth text) = printHeading depth text :=
    LineKind.trimmed_printHeading hpositive htrimmed
  obtain ⟨tail, hline⟩ := LineKind.exists_printHeading hpositive text
  apply Passes.plain
  · rw [hline]
    exact Fence.ofLine?_cons (by decide) (by decide) (by decide) tail
  · rw [htrim, hline]
    nofun

mutual

theorem passes_printNode {outer : Tag} (houter : outer.Printable) {node : Node}
    (h : node.Printable) : Passes outer.name (printNode node) := by
  cases h with
  | heading position hpositive hdepth htrimmed =>
      rw [printNode]
      exact passes_heading hpositive htrimmed
  | paragraph position hlines =>
      rw [printNode]
      exact .lines fun line hline => passes_prose (hlines line hline)
  | thematicBreak position =>
      rw [printNode]
      exact .plain (by decide) (by decide)
  | @code block hblock =>
      rw [printNode]
      exact .fenced (ofLine?_printCode hblock)
        (fun line hline => not_closes_of_infix block (infix_of_mem_splitAt hline))
        (closes_fenceFor block)
  | element position htag hclosing hchildren =>
      exact passes_element houter htag position (passes_printNodes houter hchildren)

theorem passes_printNodes {outer : Tag} (houter : outer.Printable) {nodes : List Node}
    (h : forall node, node ∈ nodes -> node.Printable) : Passes outer.name (printNodes nodes) := by
  cases nodes with
  | nil =>
      rw [printNodes]
      exact .nil _
  | cons node rest =>
      have hnode := passes_printNode houter (h node List.mem_cons_self)
      have hblank : Passes outer.name [[]] := .plain (by decide) (by decide)
      have hrest := passes_printNodes houter fun other hother =>
        h other (List.mem_cons_of_mem _ hother)
      rw [printNodes]
      exact hnode.append (hblank.append hrest)

end

theorem closingIndex_printNodes {tag : Tag} (h : tag.Printable) {children : List Node}
    (hchildren : forall child, child ∈ children -> child.Printable) (rest : List Line) :
    closingIndex tag.name 0 none (printNodes children ++ printClosing tag :: rest) =
      some (printNodes children).length := by
  have hclosing : printClosing tag = closingText tag.name := rfl
  rw [passes_printNodes h hchildren, hclosing, closingIndex_closingText]
  simp

end Parser
end LessonPress

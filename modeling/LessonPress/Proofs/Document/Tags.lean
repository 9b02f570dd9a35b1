import LessonPress.Document.Parser
import LessonPress.Proofs.Document.Kinds
import LessonPress.Proofs.Document.Extents

/-!
# Reading printed tags

## A printed tag is a spelling of the tag

Attributes are printed behind one blank each, and the end of a tag behind one or none.  So
the reader takes the whole of a printed tag, and nothing of what follows it.
-/

namespace LessonPress

open Text

namespace Printer

def written (entries : List Attribute) (selfClosing : Bool) (more : List Char) : List Char :=
  entries.flatMap printAttribute ++ ((if selfClosing then [' ', '/', '>'] else ['>']) ++ more)

variable (selfClosing : Bool) (more : List Char)

theorem written_cons (entry : Attribute) (rest : List Attribute) :
    written (entry :: rest) selfClosing more =
      [' '] ++ ((entry.name.toList ++ printValue entry.value) ++
        written rest selfClosing more) := by
  simp [written, printAttribute]

theorem head?_written (entries : List Attribute) :
    (written entries selfClosing more).head? = some ' ' ∨
      (written entries selfClosing more).head? = some '>' := by
  cases entries with
  | nil => cases selfClosing <;> simp [written]
  | cons entry rest =>
      rw [written_cons]
      exact Or.inl rfl

theorem not_isNamePart_written (entries : List Attribute) {c : Char}
    (hc : (written entries selfClosing more).head? = some c) : isNamePart c = false := by
  cases head?_written selfClosing more entries with
  | inl hspace =>
      rw [hspace] at hc
      cases hc
      exact (not_name_of_isBlank (by decide)).left
  | inr hclose =>
      rw [hclose] at hc
      cases hc
      exact (not_name_of_mark '>' (by decide)).left

end Printer

namespace Cursor

open Printer

/-!
# Values
-/

theorem readExpression_quoted {quote : Char} {inner : List Char} (h : quote ∉ inner)
    {depth : Nat} {rest before after : List Char}
    (hrest : readExpression depth none rest = some (before, after)) :
    readExpression depth (some quote) (inner ++ quote :: rest) =
      some (inner ++ quote :: before, after) := by
  induction inner with
  | nil =>
      rw [List.nil_append, readExpression]
      dsimp only
      rw [if_pos rfl, hrest]
      rfl
  | cons c tail ih =>
      have hc : c ≠ quote := fun heq => h (heq ▸ List.mem_cons_self)
      have htail : quote ∉ tail := fun hmem => h (List.mem_cons_of_mem _ hmem)
      rw [List.cons_append, readExpression]
      dsimp only
      rw [if_neg hc, ih htail]
      rfl

theorem readExpression_balanced {text : List Char} (h : Balanced text) {depth : Nat}
    {rest before after : List Char}
    (hrest : readExpression depth none rest = some (before, after)) :
    readExpression depth none (text ++ rest) = some (text ++ before, after) := by
  induction h generalizing depth rest before with
  | nil => exact hrest
  | @plain c tail hc _ ih =>
      simp only [List.mem_cons, List.not_mem_nil, or_false, not_or] at hc
      obtain ⟨hopen, hclose, hdouble, hsingle, hback⟩ := hc
      have hquote : ¬ (c = '"' ∨ c = '\'' ∨ c = '`') := by
        simp [hdouble, hsingle, hback]
      rw [List.cons_append, readExpression_none, if_neg hopen, if_neg hclose, if_neg hquote,
        ih hrest]
      rfl
  | @quoted quote inner tail hquote hinner _ ih =>
      have hmarks : quote ≠ '\x7b' ∧ quote ≠ '\x7d' ∧
          (quote = '"' ∨ quote = '\'' ∨ quote = '`') := by
        simp only [List.mem_cons, List.not_mem_nil, or_false] at hquote
        rcases hquote with rfl | rfl | rfl <;> decide
      rw [List.cons_append, List.cons_append, List.append_assoc, List.cons_append,
        readExpression_none, if_neg hmarks.left, if_neg hmarks.right.left,
        if_pos hmarks.right.right, readExpression_quoted hinner (ih hrest)]
      simp
  | @braces inner tail _ _ ihinner ihtail =>
      have hclosed : readExpression (depth + 1) none ('\x7d' :: (tail ++ rest)) =
          some ('\x7d' :: (tail ++ before), after) := by
        rw [readExpression_none, if_neg (by decide), if_pos rfl]
        dsimp only
        rw [ihtail hrest]
        rfl
      rw [List.cons_append, List.cons_append, List.append_assoc, List.cons_append,
        readExpression_none, if_pos rfl, ihinner hclosed]
      simp

theorem quoteFor_not_mem {text : List Char} (h : '"' ∉ text ∨ '\'' ∉ text) :
    quoteFor text ∉ text ∧ (quoteFor text = '"' ∨ quoteFor text = '\'') := by
  unfold quoteFor
  by_cases hdouble : '"' ∈ text
  · rw [if_pos (List.contains_iff_mem.mpr hdouble)]
    exact ⟨h.resolve_left (not_not_intro hdouble), Or.inr rfl⟩
  · rw [if_neg (mt List.contains_iff_mem.mp hdouble)]
    exact ⟨hdouble, Or.inl rfl⟩

theorem spelled_printValue {value : AttributeValue} (h : value.Printable)
    (hvalue : value ≠ .bare) :
    exists text, printValue value = '=' :: text ∧ value.Spelled text := by
  cases h with
  | @string text _ hquote =>
      obtain ⟨hmem, hmark⟩ := quoteFor_not_mem hquote
      have hspelled := AttributeValue.Spelled.string hmark hmem
      rw [String.ofList_toList] at hspelled
      exact ⟨_, rfl, hspelled⟩
  | @expression text _ htrimmed hbalanced =>
      have hend : readExpression 0 none ['\x7d'] = some ([], []) := by
        rw [readExpression_none, if_neg (by decide), if_pos rfl]
      have hread := readExpression_balanced hbalanced hend
      have htrim : trim text.toList = text.toList := htrimmed
      rw [List.append_nil] at hread
      have hspelled := AttributeValue.Spelled.expression hread
      rw [htrim, String.ofList_toList] at hspelled
      exact ⟨_, rfl, hspelled⟩
  | bare => exact absurd rfl hvalue

/-!
# Attributes and tags
-/

theorem spelled_printAttribute {entry : Attribute} (hname : IsName entry.name.toList)
    (hvalue : entry.value.Printable) :
    entry.Spelled (entry.name.toList ++ printValue entry.value) := by
  rcases entry with ⟨name, value⟩
  by_cases hbare : value = .bare
  · have hspelled := Attribute.Spelled.bare hname
    rw [String.ofList_toList] at hspelled
    rw [hbare]
    simpa [printValue] using hspelled
  · obtain ⟨text, htext, hspelled⟩ := spelled_printValue hvalue hbare
    have hnone : isBlankLine [] = true := rfl
    have hentry := Attribute.Spelled.valued hname hnone hnone hspelled
    rw [String.ofList_toList] at hentry
    dsimp only
    rw [htext]
    exact hentry

theorem spelled_written {entries : List Attribute}
    (h : forall entry, entry ∈ entries -> IsName entry.name.toList ∧ entry.value.Printable)
    (selfClosing : Bool) : Tag.Spelled (written entries selfClosing []) entries selfClosing := by
  have hspace : isBlankLine [' '] = true := by
    decide
  induction entries with
  | nil =>
      cases selfClosing with
      | true => exact .selfClosing hspace
      | false => exact .opening rfl
  | cons entry rest ih =>
      obtain ⟨hname, hvalue⟩ := h entry List.mem_cons_self
      rw [written_cons]
      exact .entry hspace (spelled_printAttribute hname hvalue)
        (fun _ _ hc => not_isNamePart_written selfClosing [] rest hc)
        (ih fun other hother => h other (List.mem_cons_of_mem _ hother))

theorem feed_not_mem_printAttribute {entry : Attribute} (hname : IsName entry.name.toList)
    (hvalue : entry.value.Printable) : '\n' ∉ printAttribute entry := by
  have hfeed := feed_not_mem_of_isName hname
  rcases entry with ⟨name, value⟩
  cases hvalue with
  | @string text hline hquote =>
      have hmark : quoteFor text.toList ≠ '\n' := by
        rcases (quoteFor_not_mem hquote).right with heq | heq <;> rw [heq] <;> decide
      simp [printAttribute, printValue, hfeed, hline, hmark.symm]
  | expression hline _ _ => simp [printAttribute, printValue, hfeed, hline]
  | bare => simp [printAttribute, printValue, hfeed]

theorem feed_not_mem_written {entries : List Attribute}
    (h : forall entry, entry ∈ entries -> IsName entry.name.toList ∧ entry.value.Printable)
    (selfClosing : Bool) : '\n' ∉ written entries selfClosing [] := by
  have hentries : '\n' ∉ entries.flatMap printAttribute := by
    intro hmem
    obtain ⟨entry, hentry, hfeed⟩ := List.mem_flatMap.mp hmem
    obtain ⟨hname, hvalue⟩ := h entry hentry
    exact feed_not_mem_printAttribute hname hvalue hfeed
  unfold written
  cases selfClosing <;> simp [hentries]

theorem printTag_eq (tag : Tag) (more : List Char) :
    printTag tag ++ more =
      '<' :: (tag.name.toList ++ written tag.attributes tag.selfClosing more) := by
  simp [printTag, written]

theorem isNamePart_of_mem_name {tag : Tag} (h : tag.Printable) {c : Char}
    (hc : c ∈ tag.name.toList) : isNamePart c = true := by
  obtain ⟨first, rest, hname, hupper, hrest⟩ := h.name
  rw [hname] at hc
  cases List.mem_cons.mp hc with
  | inl heq =>
      rw [heq]
      exact isNamePart_of_isUpper hupper
  | inr hmem => exact hrest c hmem

end Cursor

/-!
# Printed tags as lines
-/

namespace Printer

theorem exists_printTag {tag : Tag} (h : tag.Printable) :
    exists c rest, printTag tag = '<' :: c :: rest ∧ LineKind.isUpper c = true := by
  obtain ⟨first, following, hname, hupper, _⟩ := h.name
  refine ⟨first, following ++ written tag.attributes tag.selfClosing [], ?_, hupper⟩
  have htag := Cursor.printTag_eq tag []
  rw [List.append_nil, hname, List.cons_append] at htag
  exact htag

theorem getLast?_printTag (tag : Tag) : (printTag tag).getLast? = some '>' := by
  unfold printTag
  rw [List.getLast?_append]
  cases tag.selfClosing <;> rfl

theorem trimmed_printTag {tag : Tag} (h : tag.Printable) : Trimmed (printTag tag) := by
  obtain ⟨c, rest, htag, _⟩ := exists_printTag h
  apply trimmed_of_ends
  · intro d hd
    rw [htag] at hd
    cases hd
    decide
  · intro d hd
    rw [getLast?_printTag] at hd
    cases hd
    decide

theorem ofLine?_printTag {tag : Tag} (h : tag.Printable) :
    Fence.ofLine? (printTag tag) = none := by
  obtain ⟨c, rest, htag, _⟩ := exists_printTag h
  rw [htag]
  exact Fence.ofLine?_cons (by decide) (by decide) (by decide) _

theorem of_printTag {tag : Tag} (h : tag.Printable) : LineKind.of (printTag tag) = .element := by
  obtain ⟨c, rest, htag, hupper⟩ := exists_printTag h
  rw [← (trimmed_printTag h).trimStart] at htag
  exact LineKind.of_opening htag hupper

end Printer

namespace Parser

open Printer

variable {tag : Tag} (h : tag.Printable) (number : Nat) (rest : List Line)
include h

theorem opening_printTag :
    Opening (printTag tag) [] tag (written tag.attributes tag.selfClosing []) [] where
  named := fun _ hc => Cursor.isNamePart_of_mem_name h hc
  spelled := Cursor.spelled_written h.attributes tag.selfClosing
  apart := fun _ hc => not_isNamePart_written tag.selfClosing [] tag.attributes hc
  joined := by
    have hline := Cursor.printTag_eq tag []
    rw [List.append_nil] at hline
    rw [(trimmed_printTag h).trimStart, List.append_nil]
    exact hline
  feeds := Cursor.lineFeeds_eq_zero (Cursor.feed_not_mem_written h.attributes tag.selfClosing)
  ended := List.not_mem_nil

theorem readExtent_selfClosing (hclosing : tag.selfClosing = true) :
    readExtent number (printTag tag) rest = .ok ⟨tag, 0, .inl []⟩ :=
  (opening_printTag h).readExtent_closed (.selfClosing hclosing rfl) rest

theorem readExtent_open (hopen : tag.selfClosing = false) {count : Nat}
    (hcount : closingIndex tag.name 0 none rest = some count) :
    readExtent number (printTag tag) rest = .ok ⟨tag, 0, .inr count⟩ := by
  have hread := (opening_printTag h).readExtent_open number hopen rfl rest
  rw [hcount] at hread
  exact hread

end Parser
end LessonPress

import LessonPress.Document.Frontmatter
import LessonPress.Proofs.Document.Printable

/-!
# Reading printed frontmatter

## Values in double quotes, one on each line

A printed line starts with its key and ends with a quotation mark, so it is neither passed
over nor taken for the end of the frontmatter.
-/

namespace LessonPress

open Text

namespace Frontmatter

open Printer

/-!
# Lines
-/

def valueText (value : List Char) : List Char :=
  '"' :: value ++ ['"']

theorem frontmatterLine_eq (entry : String × String) :
    frontmatterLine entry = entry.1.toList ++ ':' :: ' ' :: valueText entry.2.toList := by
  simp [frontmatterLine, valueText]

theorem getLast?_frontmatterLine (entry : String × String) :
    (frontmatterLine entry).getLast? = some '"' := by
  unfold frontmatterLine
  rw [List.getLast?_append]
  rfl

theorem trimmed_valueText (value : List Char) : Trimmed (valueText value) := by
  have hquote : isBlank '"' = false := by
    decide
  apply trimmed_of_ends
  · intro c hc
    cases hc
    exact hquote
  · intro c hc
    unfold valueText at hc
    rw [List.getLast?_append] at hc
    cases hc
    exact hquote

theorem unquote_valueText (value : List Char) : unquote (valueText value) = value := by
  have hbetween : betweenQuotes '"' (valueText value) = some value := by
    simp [betweenQuotes, valueText]
  unfold unquote
  rw [hbetween]

variable {entry : String × String} (h : Printable entry)
include h

theorem key_ne_nil : entry.1.toList ≠ [] :=
  fun hnil => h.named (String.toList_eq_nil_iff.mp hnil)

theorem isPassedOver_frontmatterLine : isPassedOver (frontmatterLine entry) = false := by
  obtain ⟨first, rest, hkey⟩ := List.exists_cons_of_ne_nil (key_ne_nil h)
  have hblank : isBlank first = false := h.trimmed.head? (by rw [hkey]; rfl)
  have hitem : (first == '-') = false := by
    have hnot := h.noItem
    rw [hkey] at hnot
    simpa using hnot
  have hcomment : (first == '#') = false := by
    have hnot := h.noComment
    rw [hkey] at hnot
    simpa using hnot
  rw [frontmatterLine_eq, hkey, List.cons_append]
  unfold isPassedOver isBlankLine
  dsimp only
  rw [List.all_cons, hblank, hitem, hcomment]
  rfl

theorem entryOf_frontmatterLine : entryOf (frontmatterLine entry) = some entry := by
  have hkey : trim entry.1.toList = entry.1.toList := h.trimmed
  have hvalue : trim (' ' :: valueText entry.2.toList) = valueText entry.2.toList := by
    rw [trim_cons_of_blank (by decide)]
    exact trimmed_valueText entry.2.toList
  unfold entryOf
  rw [isPassedOver_frontmatterLine h, if_neg Bool.false_ne_true, frontmatterLine_eq,
    cutAt_append h.noColon]
  dsimp only
  rw [h.trimmed.not_blank (key_ne_nil h), if_neg Bool.false_ne_true, hkey, hvalue,
    unquote_valueText, String.ofList_toList, String.ofList_toList]

omit h in
theorem closes_frontmatterLine (entry : String × String) :
    closes (frontmatterLine entry) = false := by
  have hlast := getLast?_frontmatterLine entry
  have htrim : trimEnd (frontmatterLine entry) = frontmatterLine entry := by
    apply trimEnd_of_getLast?
    intro c hc
    rw [hlast] at hc
    cases hc
    decide
  unfold closes
  rw [htrim, Bool.or_eq_false_iff, beq_eq_false_iff_ne, beq_eq_false_iff_ne]
  constructor
  · intro heq
    rw [heq] at hlast
    exact absurd hlast (by decide)
  · intro heq
    rw [heq] at hlast
    exact absurd hlast (by decide)

theorem whole_frontmatterLine : Whole (frontmatterLine entry) where
  feed := by
    have hkey := h.keyLine
    have hvalue := h.valueLine
    simp [frontmatterLine, hkey, hvalue]
  last := by
    rw [getLast?_frontmatterLine]
    decide

end Frontmatter

namespace Printer

open Frontmatter (opens closes entryOf)

variable {frontmatter : SortedMap String}

/-!
# The whole head
-/

theorem filterMap_entryOf {entries : List (String × String)}
    (h : forall entry, entry ∈ entries -> Frontmatter.Printable entry) :
    (entries.map frontmatterLine).filterMap entryOf = entries := by
  induction entries with
  | nil => rfl
  | cons entry rest ih =>
      have hrest := ih fun other hother => h other (List.mem_cons_of_mem _ hother)
      rw [List.map_cons, List.filterMap_cons_some
        (Frontmatter.entryOf_frontmatterLine (h entry List.mem_cons_self)), hrest]

theorem read_printFrontmatter
    (h : forall entry, entry ∈ frontmatter.entries -> Frontmatter.Printable entry)
    {rest : List Line} (hrest : forall first, rest.head? = some first -> opens first = false) :
    Frontmatter.read (printFrontmatter frontmatter ++ rest) =
      .ok (frontmatter, (printFrontmatter frontmatter).length) := by
  unfold printFrontmatter
  cases hentries : frontmatter.entries with
  | nil =>
      have hempty : frontmatter = .empty := SortedMap.eq_of_entries hentries
      rw [List.nil_append, hempty]
      unfold Frontmatter.read
      cases rest with
      | nil => rfl
      | cons first following =>
          dsimp only
          rw [hrest first rfl]
          rfl
  | cons entry others =>
      have hopens : opens ['-', '-', '-'] = true := by
        decide
      have hcloses : closes ['-', '-', '-'] = true := by
        decide
      have hcount : ((entry :: others).map frontmatterLine ++ ['-', '-', '-'] :: rest).findIdx?
          closes = some ((entry :: others).map frontmatterLine).length := by
        refine findIdx?_append_cons (fun line hline => ?_) hcloses rest
        obtain ⟨other, _, rfl⟩ := List.mem_map.mp hline
        exact Frontmatter.closes_frontmatterLine other
      rw [hentries] at h
      dsimp only
      rw [List.cons_append, List.cons_append, List.append_assoc, List.singleton_append]
      unfold Frontmatter.read
      dsimp only
      rw [hopens, if_pos rfl, hcount]
      dsimp only
      rw [List.take_left, filterMap_entryOf h, ← hentries, SortedMap.ofList_entries]
      simp

theorem whole_printFrontmatter
    (h : forall entry, entry ∈ frontmatter.entries -> Frontmatter.Printable entry) :
    forall line, line ∈ printFrontmatter frontmatter -> Whole line := by
  have hmark : Whole ['-', '-', '-'] := ⟨by decide, by decide⟩
  unfold printFrontmatter
  cases hentries : frontmatter.entries with
  | nil => nofun
  | cons entry others =>
      intro line hline
      rw [hentries] at h
      simp only [List.cons_append, List.mem_cons, List.mem_append, List.not_mem_nil,
        or_false] at hline
      rcases hline with rfl | hentry | rfl
      · exact hmark
      · obtain ⟨other, hother, rfl⟩ := List.mem_map.mp hentry
        exact Frontmatter.whole_frontmatterLine (h other hother)
      · exact hmark

end Printer
end LessonPress

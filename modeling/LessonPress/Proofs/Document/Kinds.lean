import LessonPress.Document.Frontmatter
import LessonPress.Proofs.Document.Printable
import LessonPress.Proofs.Text.Names

/-!
# Kinds of printed lines

## What the first line of a printed block starts

A printed block starts with a line of its own kind.  Only code starts with a line that opens a
fence.
-/

namespace LessonPress

open Text

/-!
# Lines without fences
-/

theorem Fence.ofLine?_of_head? {line : Line}
    (h : forall c, (trimStart line).head? = some c -> c ≠ '`' ∧ c ≠ '~') : ofLine? line = none := by
  unfold ofLine?
  cases hstart : trimStart line with
  | nil => rfl
  | cons c rest =>
      rw [hstart] at h
      dsimp only
      rw [if_pos (Or.inr (Or.inl (h c rfl)))]

theorem Fence.ofLine?_cons {c : Char} (hblank : isBlank c = false) (hbacktick : c ≠ '`')
    (htilde : c ≠ '~') (rest : List Char) : ofLine? (c :: rest) = none := by
  apply Fence.ofLine?_of_head?
  rw [trimStart_of_not_blank hblank]
  rintro d ⟨⟩
  exact ⟨hbacktick, htilde⟩

theorem Fence.of_ofLine? {line : Line} {fence : Fence} (h : Fence.ofLine? line = some fence) :
    (fence.marker = '`' ∨ fence.marker = '~') ∧ 3 ≤ fence.length := by
  unfold Fence.ofLine? at h
  dsimp only at h
  split at h
  · cases h
  · rename_i marker rest _
    split at h
    · cases h
    · rename_i hopens
      split at h
      · cases h
      · cases h
        obtain ⟨_, hother⟩ := not_or.mp hopens
        obtain ⟨hmarker, hlong⟩ := not_or.mp hother
        refine ⟨?_, Nat.le_of_not_lt hlong⟩
        by_cases hbacktick : marker = '`'
        · exact Or.inl hbacktick
        · exact Or.inr (Decidable.byContradiction fun htilde => hmarker ⟨hbacktick, htilde⟩)

theorem Fence.not_closes {opening line : Line} {fence : Fence}
    (hopening : Fence.ofLine? opening = some fence)
    (hline : forall c, (trim line).head? = some c -> c ≠ '`' ∧ c ≠ '~') :
    fence.closes line = false := by
  have hfence := Fence.of_ofLine? hopening
  have hrun : (trim line).takeWhile (· == fence.marker) = [] := by
    cases htrim : trim line with
    | nil => rfl
    | cons c rest =>
        have hc := hline c (congrArg List.head? htrim)
        have hne : (c == fence.marker) = false := by
          rw [beq_eq_false_iff_ne]
          rcases hfence.left with heq | heq
          · rw [heq]
            exact hc.left
          · rw [heq]
            exact hc.right
        rw [List.takeWhile_cons, hne, if_neg Bool.false_ne_true]
  have hshort : decide (fence.length ≤ 0) = false := by
    rw [decide_eq_false_iff_not]
    omega
  unfold Fence.closes
  dsimp only
  rw [hrun, List.length_nil, hshort, Bool.false_and]

theorem Frontmatter.opens_of_head {line : Line} (h : line.head? ≠ some '-') :
    Frontmatter.opens line = false := by
  unfold Frontmatter.opens
  rw [beq_eq_false_iff_ne]
  intro heq
  obtain ⟨tail, htail⟩ := prefix_trimEnd line
  rw [heq] at htail
  rw [← htail] at h
  exact h rfl

namespace LineKind

/-!
# Lines of a kind
-/

theorem of_eq_blank_iff {line : Line} : LineKind.of line = .blank <-> isBlankLine line = true := by
  unfold LineKind.of
  dsimp only
  rw [isEmpty_trim]
  constructor
  · intro h
    split at h
    · assumption
    · repeat' split at h
      all_goals cases h
  · intro h
    rw [if_pos h]

theorem ofLine?_of_fence {line : Line} {fence : Fence} (h : LineKind.of line = .fence fence) :
    Fence.ofLine? line = some fence := by
  unfold LineKind.of at h
  dsimp only at h
  split at h
  · cases h
  · split at h
    · rename_i hfence
      cases h
      exact hfence
    · repeat' split at h
      all_goals cases h

theorem ofLine?_eq_none {line : Line} (h : forall fence, LineKind.of line ≠ .fence fence) :
    Fence.ofLine? line = none := by
  unfold LineKind.of at h
  dsimp only at h
  split at h
  · rename_i hempty
    rw [isEmpty_trim] at hempty
    unfold Fence.ofLine?
    rw [(trimStart_eq_nil_iff line).mpr hempty]
  · split at h
    · exact absurd rfl (h _)
    · assumption

theorem headingOf?_of_heading {line title : Line} {depth : Nat}
    (h : LineKind.of line = .heading depth title) :
    headingOf? (trim line) = some (depth, title) := by
  unfold LineKind.of at h
  dsimp only at h
  split at h
  · cases h
  · split at h
    · cases h
    · split at h
      · cases h
        assumption
      · repeat' split at h
        all_goals cases h

theorem isThematicBreak_of_thematicBreak {line : Line} (h : LineKind.of line = .thematicBreak) :
    isThematicBreak (trim line) = true := by
  unfold LineKind.of at h
  dsimp only at h
  repeat' split at h
  all_goals first | assumption | cases h

theorem startsElement_of_element {line : Line} (h : LineKind.of line = .element) :
    startsElement (trim line) = true := by
  unfold LineKind.of at h
  dsimp only at h
  repeat' split at h
  all_goals first | assumption | cases h

theorem exists_opening {line : Line} (h : LineKind.of line = .element) :
    exists c rest, trimStart line = '<' :: c :: rest ∧ isUpper c = true := by
  have hstarts := startsElement_of_element h
  unfold startsElement at hstarts
  split at hstarts
  · rename_i c rest htrim
    obtain ⟨tail, htail⟩ := prefix_trim line
    rw [htrim] at htail
    exact ⟨c, rest ++ tail, htail.symm, hstarts⟩
  · cases hstarts

theorem of_nil : LineKind.of [] = .blank := by
  rfl

theorem of_stars : LineKind.of ['*', '*', '*'] = .thematicBreak := by
  decide

theorem of_prose {line : Line} (h : Prose line) : LineKind.of line = .text := by
  have htrim : trim line = line := h.trimmed
  have htag : startsElement line = false ∧ startsHtml line = false := by
    cases line with
    | nil => exact ⟨rfl, rfl⟩
    | cons c rest =>
        have hc : c ≠ '<' := fun heq => h.noTag (congrArg some heq)
        constructor
        · unfold startsElement
          split
          · rename_i heq
            exact absurd (List.cons.inj heq).left hc
          · rfl
        · unfold startsHtml
          split
          · rename_i heq
            exact absurd (List.cons.inj heq).left hc
          · rfl
  have hfilled : line.isEmpty = false := by
    cases line with
    | nil => exact absurd h.filled (by decide)
    | cons c rest => rfl
  unfold LineKind.of
  dsimp only
  rw [htrim, hfilled, h.noFence, h.noHeading, h.noBreak, htag.left, htag.right]
  rfl

theorem continuesParagraph_prose {line : Line} (h : Prose line) :
    continuesParagraph line = true := by
  unfold continuesParagraph
  rw [of_prose h]

theorem continuesParagraph_nil : continuesParagraph [] = false := by
  rfl

/-!
# Headings
-/

theorem trimEndOf_eq {c : Char} {text : List Char} (h : text.getLast? ≠ some c) :
    trimEndOf c text = text := by
  unfold trimEndOf
  cases hreverse : text.reverse with
  | nil =>
      rw [List.reverse_eq_nil_iff.mp hreverse]
      rfl
  | cons last front =>
      have hlast : (last == c) = false := by
        rw [List.getLast?_eq_head?_reverse, hreverse] at h
        simpa using h
      rw [List.dropWhile_cons, hlast, if_neg Bool.false_ne_true, ← hreverse, List.reverse_reverse]

theorem headingOf?_printHeading {depth : Nat} {text : String} (hpositive : 1 ≤ depth)
    (hdepth : depth ≤ 6) (htrimmed : Trimmed text.toList)
    (hlast : text.toList.getLast? ≠ some '#') :
    headingOf? (Printer.printHeading depth text) = some (depth, text.toList) := by
  have hbounds : ¬ (depth = 0 ∨ 6 < depth) := by
    omega
  unfold headingOf? Printer.printHeading
  dsimp only
  by_cases hempty : text.isEmpty = true
  · have htext : text.toList = [] := by
      rw [String.isEmpty_iff.mp hempty]
      rfl
    have hnone : ([] : List Char).head? ≠ some '#' := nofun
    have hsigns := takeWhile_replicate '#' depth hnone
    rw [List.append_nil] at hsigns
    rw [if_pos hempty, hsigns.left, hsigns.right, List.length_replicate, if_neg hbounds, htext]
  · have hspace : (' ' :: text.toList).head? ≠ some '#' := by
      simp
    obtain ⟨htake, hdrop⟩ := takeWhile_replicate '#' depth hspace
    have hblank : isBlank ' ' = true := by
      decide
    rw [if_neg hempty, htake, hdrop, List.length_replicate, if_neg hbounds]
    dsimp only
    rw [if_pos hblank, trim_cons_of_blank hblank, show trim text.toList = text.toList from htrimmed,
      trimEndOf_eq hlast, htrimmed.trimEnd]

theorem exists_printHeading {depth : Nat} (h : 1 ≤ depth) (text : String) :
    exists tail, Printer.printHeading depth text = '#' :: tail := by
  obtain ⟨less, rfl⟩ : exists less, depth = less + 1 := ⟨depth - 1, by omega⟩
  unfold Printer.printHeading
  split <;> exact ⟨_, rfl⟩

theorem trimmed_printHeading {depth : Nat} {text : String} (hpositive : 1 ≤ depth)
    (htrimmed : Trimmed text.toList) : Trimmed (Printer.printHeading depth text) := by
  have hsign : isBlank '#' = false := by
    decide
  apply trimmed_of_ends
  · intro c hc
    obtain ⟨tail, hline⟩ := exists_printHeading hpositive text
    rw [hline] at hc
    cases hc
    exact hsign
  · intro c hc
    unfold Printer.printHeading at hc
    split at hc
    · have hmem := List.mem_of_getLast? hc
      rw [(List.mem_replicate.mp hmem).right]
      exact hsign
    · rename_i hempty
      have hne : text.toList ≠ [] := by
        intro htext
        exact hempty (String.isEmpty_iff.mpr (String.toList_eq_nil_iff.mp htext))
      rw [List.getLast?_append, List.getLast?_cons, List.getLast?_eq_some_getLast hne] at hc
      exact htrimmed.getLast? ((List.getLast?_eq_some_getLast hne).trans hc)

theorem of_printHeading {depth : Nat} {text : String} (hpositive : 1 ≤ depth)
    (hdepth : depth ≤ 6) (htrimmed : Trimmed text.toList)
    (hlast : text.toList.getLast? ≠ some '#') :
    LineKind.of (Printer.printHeading depth text) = .heading depth text.toList := by
  have htrim : trim (Printer.printHeading depth text) = Printer.printHeading depth text :=
    trimmed_printHeading hpositive htrimmed
  have hheading := headingOf?_printHeading hpositive hdepth htrimmed hlast
  obtain ⟨tail, hline⟩ := exists_printHeading hpositive text
  have hfence : Fence.ofLine? ('#' :: tail) = none :=
    Fence.ofLine?_cons (by decide) (by decide) (by decide) tail
  unfold LineKind.of
  dsimp only
  rw [htrim, hheading, hline, hfence]
  rfl

/-!
# Tags
-/

theorem trim_of_opening {line : Line} {c : Char} {rest : List Char}
    (h : trimStart line = '<' :: c :: rest) (hc : isUpper c = true) :
    trim line = '<' :: c :: trimEnd rest := by
  have hlast : forall d, ['<', c].getLast? = some d -> isBlank d = false := by
    rintro d ⟨⟩
    exact not_blank_of_isNamePart (isNamePart_of_isUpper hc)
  have hfront := trimEnd_append hlast rest
  unfold trim
  rw [h]
  exact hfront

theorem of_opening {line : Line} {c : Char} {rest : List Char}
    (h : trimStart line = '<' :: c :: rest) (hc : isUpper c = true) :
    LineKind.of line = .element := by
  have hfence : Fence.ofLine? line = none := by
    apply Fence.ofLine?_of_head?
    rw [h]
    rintro d ⟨⟩
    decide
  have hheading : headingOf? ('<' :: c :: trimEnd rest) = none := by
    rfl
  have hbreak : isThematicBreak ('<' :: c :: trimEnd rest) = false := by
    rfl
  have hstarts : startsElement ('<' :: c :: trimEnd rest) = true := hc
  unfold LineKind.of
  dsimp only
  rw [trim_of_opening h hc, hfence, hheading, hbreak, hstarts]
  rfl

end LineKind
end LessonPress

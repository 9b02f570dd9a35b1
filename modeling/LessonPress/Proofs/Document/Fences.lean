import LessonPress.Document.Parser
import LessonPress.Proofs.Document.Kinds

/-!
# Printed blocks of code

## A fence that no line of the code can close

The fence around a block of code is longer than any run of backticks in the code, so the
first line that closes it is the last line of the printed block.
-/

namespace LessonPress

open Text

namespace Printer

/-!
# Runs of a character
-/

theorem add_length_le_longestRun (marker : Char) (current : Nat) (text : List Char) :
    current + (text.takeWhile (· == marker)).length ≤ longestRun marker current text := by
  induction text generalizing current with
  | nil => exact Nat.le_refl _
  | cons c rest ih =>
      rw [longestRun, List.takeWhile_cons]
      by_cases hc : c = marker
      · have hrest := ih (current + 1)
        rw [if_pos hc, if_pos (beq_iff_eq.mpr hc), List.length_cons]
        omega
      · rw [if_neg hc, if_neg (mt beq_iff_eq.mp hc)]
        exact Nat.le_max_left _ _

theorem length_le_longestRun {marker : Char} {run text : List Char} (h : run <:+: text)
    (hrun : forall c, c ∈ run -> c = marker) (current : Nat) :
    run.length ≤ longestRun marker current text := by
  have hfront : forall text : List Char, run <+: text -> forall current,
      run.length ≤ longestRun marker current text := by
    rintro text ⟨tail, rfl⟩ current
    have hall : forall c, c ∈ run -> (c == marker) = true :=
      fun c hc => beq_iff_eq.mpr (hrun c hc)
    have htaken := add_length_le_longestRun marker current (run ++ tail)
    rw [List.takeWhile_append_of_pos hall, List.length_append] at htaken
    omega
  induction text generalizing current with
  | nil =>
      rw [List.infix_nil.mp h]
      exact Nat.zero_le _
  | cons c rest ih =>
      cases List.infix_cons_iff.mp h with
      | inl hprefix => exact hfront _ hprefix current
      | inr hinfix =>
          rw [longestRun]
          split
          · exact ih hinfix _
          · exact Nat.le_trans (ih hinfix 0) (Nat.le_max_right _ _)

/-!
# Fences
-/

def fenceLength (value : List Char) : Nat :=
  max 3 (longestRun '`' 0 value + 1)

theorem fenceFor_eq (value : List Char) :
    fenceFor value = List.replicate (fenceLength value) '`' := by
  rfl

theorem three_le_fenceLength (value : List Char) : 3 ≤ fenceLength value :=
  Nat.le_max_left _ _

def fenceOf (block : CodeBlock) : Fence :=
  ⟨'`', fenceLength block.value.toList, 0, printInfo block⟩

variable {block : CodeBlock}

theorem not_mem_printInfo {c : Char} (hspace : c ≠ ' ')
    (hlang : forall lang, block.lang = some lang -> c ∉ lang.toList)
    (hinfo : forall info, block.info = some info -> c ∉ info.toList) : c ∉ printInfo block := by
  unfold printInfo
  cases hblock : block.lang with
  | none => exact List.not_mem_nil
  | some lang =>
      have hword := hlang lang hblock
      cases hextra : block.info with
      | none => exact hword
      | some info => simp [hword, hspace, hinfo info hextra]

theorem backtick_not_mem_printInfo (h : block.Printable) : '`' ∉ printInfo block :=
  not_mem_printInfo (by decide)
    (fun lang hlang hmem => ((h.lang lang hlang).right _ hmem).right rfl)
    fun info hinfo => (h.info info hinfo).right.right.right.right

theorem feed_not_mem_printInfo (h : block.Printable) : '\n' ∉ printInfo block := by
  refine not_mem_printInfo (by decide) (fun lang hlang hmem => ?_)
    fun info hinfo => (h.info info hinfo).right.right.right.left
  have hnot := ((h.lang lang hlang).right _ hmem).left
  exact Bool.false_ne_true (hnot.symm.trans (by decide))

theorem toList_ne_nil {text : String} (h : text ≠ "") : text.toList ≠ [] :=
  fun hnil => h (String.toList_eq_nil_iff.mp hnil)

theorem trimmed_printInfo (h : block.Printable) : Trimmed (printInfo block) := by
  unfold printInfo
  cases hlang : block.lang with
  | none => rfl
  | some lang =>
      obtain ⟨hne, hword⟩ := h.lang lang hlang
      have hblank : forall c, c ∈ lang.toList -> isBlank c = false :=
        fun c hc => (hword c hc).left
      cases hinfo : block.info with
      | none =>
          exact trimmed_of_ends (fun c hc => hblank c (List.mem_of_head? hc))
            fun c hc => hblank c (List.mem_of_getLast? hc)
      | some info =>
          obtain ⟨_, hinfone, htrimmed, _⟩ := h.info info hinfo
          have hinfoLast := List.getLast?_eq_some_getLast (toList_ne_nil hinfone)
          dsimp only
          apply trimmed_of_ends
          · intro c hc
            obtain ⟨first, rest, hfirst⟩ := List.exists_cons_of_ne_nil (toList_ne_nil hne)
            rw [hfirst] at hc
            cases hc
            exact hblank _ (hfirst ▸ List.mem_cons_self)
          · intro c hc
            rw [List.getLast?_append, List.getLast?_cons, hinfoLast] at hc
            exact htrimmed.getLast? (hinfoLast.trans hc)

theorem exists_fenceLength (value : List Char) : exists less, fenceLength value = less + 3 :=
  ⟨fenceLength value - 3, by
    have hthree := three_le_fenceLength value
    omega⟩

theorem ofLine?_printCode (h : block.Printable) :
    Fence.ofLine? (fenceFor block.value.toList ++ printInfo block) = some (fenceOf block) := by
  have hblank : isBlank '`' = false := by
    decide
  obtain ⟨less, hlength⟩ := exists_fenceLength block.value.toList
  have hbacktick := backtick_not_mem_printInfo h
  have hhead : (printInfo block).head? ≠ some '`' :=
    fun hhead => hbacktick (List.mem_of_head? hhead)
  obtain ⟨htake, hdrop⟩ := takeWhile_replicate '`' (less + 2) hhead
  have htrim : trim (printInfo block) = printInfo block := trimmed_printInfo h
  have hcontains : (printInfo block).contains '`' = false := by
    simpa using hbacktick
  unfold Fence.ofLine? fenceOf
  rw [fenceFor_eq, hlength, List.replicate_succ, List.cons_append,
    trimStart_of_not_blank hblank, List.takeWhile_cons_of_neg (Bool.eq_false_iff.mp hblank)]
  dsimp only
  rw [htake, hdrop, htrim, List.length_replicate, hcontains]
  have hopens : ¬ (3 < byteLength [] ∨ ('`' ≠ '`' ∧ '`' ≠ '~') ∨ less + 2 + 1 < 3) := by
    simp [byteLength]
  rw [if_neg hopens, if_neg (by simp)]
  rfl

theorem trimmed_fenceLine (h : block.Printable) :
    Trimmed (fenceFor block.value.toList ++ printInfo block) := by
  have hblank : isBlank '`' = false := by
    decide
  have hfence : forall c, c ∈ fenceFor block.value.toList -> isBlank c = false := by
    intro c hc
    rw [(List.mem_replicate.mp hc).right]
    exact hblank
  obtain ⟨less, hlength⟩ := exists_fenceLength block.value.toList
  apply trimmed_of_ends
  · intro c hc
    rw [fenceFor_eq, hlength, List.replicate_succ, List.cons_append] at hc
    cases hc
    exact hblank
  · intro c hc
    rw [List.getLast?_append] at hc
    cases hlast : (printInfo block).getLast? with
    | none =>
        rw [hlast, Option.none_or] at hc
        exact hfence c (List.mem_of_getLast? hc)
    | some last =>
        rw [hlast, Option.some_or] at hc
        exact (trimmed_printInfo h).getLast? (hlast.trans hc)

theorem of_printCode (h : block.Printable) :
    LineKind.of (fenceFor block.value.toList ++ printInfo block) = .fence (fenceOf block) := by
  obtain ⟨less, hlength⟩ := exists_fenceLength block.value.toList
  have htrim : trim (fenceFor block.value.toList ++ printInfo block) =
      fenceFor block.value.toList ++ printInfo block := trimmed_fenceLine h
  have hfilled : (fenceFor block.value.toList ++ printInfo block).isEmpty = false := by
    rw [fenceFor_eq, hlength]
    rfl
  unfold LineKind.of
  dsimp only
  rw [htrim, hfilled, ofLine?_printCode h]
  rfl

/-!
# The end of a block
-/

theorem closes_fenceFor (block : CodeBlock) :
    (fenceOf block).closes (fenceFor block.value.toList) = true := by
  have hblank : forall c, c ∈ fenceFor block.value.toList -> isBlank c = false := by
    intro c hc
    rw [(List.mem_replicate.mp hc).right]
    decide
  have htrim : trim (fenceFor block.value.toList) = fenceFor block.value.toList :=
    trimmed_of_ends (fun c hc => hblank c (List.mem_of_head? hc))
      fun c hc => hblank c (List.mem_of_getLast? hc)
  have hnone : ([] : List Char).head? ≠ some '`' := nofun
  obtain ⟨htake, hdrop⟩ := takeWhile_replicate '`' (fenceLength block.value.toList) hnone
  rw [List.append_nil] at htake hdrop
  unfold Fence.closes fenceOf
  dsimp only
  rw [htrim, fenceFor_eq, htake, hdrop, List.length_replicate]
  simp [isBlankLine]

theorem not_closes_of_infix (block : CodeBlock) {line : Line}
    (h : line <:+: block.value.toList) : (fenceOf block).closes line = false := by
  have hrun : (trim line).takeWhile (· == '`') <:+: block.value.toList :=
    (List.takeWhile_prefix _).isInfix.trans ((infix_trim line).trans h)
  have hall : forall c, c ∈ (trim line).takeWhile (· == '`') -> c = '`' :=
    fun c hc => beq_iff_eq.mp (List.all_eq_true.mp List.all_takeWhile c hc)
  have hshort := length_le_longestRun hrun hall 0
  have hlong : ¬ fenceLength block.value.toList ≤ ((trim line).takeWhile (· == '`')).length := by
    unfold fenceLength
    omega
  unfold Fence.closes fenceOf
  dsimp only
  rw [decide_eq_false hlong, Bool.false_and]

theorem bodyLength_printCode (block : CodeBlock) (rest : List Line) :
    (fenceOf block).bodyLength
        (splitAt '\n' block.value.toList ++ fenceFor block.value.toList :: rest) =
      some (splitAt '\n' block.value.toList).length :=
  findIdx?_append_cons (fun _ hline => not_closes_of_infix block (infix_of_mem_splitAt hline))
    (closes_fenceFor block) rest

/-!
# Language and info text
-/

theorem exists_printInfo (h : block.Printable) {lang : String} (hlang : block.lang = some lang) :
    exists rest, printInfo block = lang.toList ++ rest ∧
      (forall c, rest.head? = some c -> isBlank c = true) ∧
      trim rest = (block.info.getD "").toList := by
  unfold printInfo
  rw [hlang]
  cases hinfo : block.info with
  | none => exact ⟨[], (List.append_nil _).symm, nofun, rfl⟩
  | some info =>
      have hspace : isBlank ' ' = true := by
        decide
      have htrimmed := (h.info info hinfo).right.right.left
      refine ⟨' ' :: info.toList, rfl, ?_, ?_⟩
      · intro c hc
        cases hc
        exact hspace
      · rw [trim_cons_of_blank hspace]
        exact htrimmed

theorem word_printInfo (h : block.Printable) {lang : String} (hlang : block.lang = some lang)
    {rest : List Char} (hinfo : printInfo block = lang.toList ++ rest)
    (hrest : forall c, rest.head? = some c -> isBlank c = true) :
    (printInfo block).takeWhile (fun c => !isBlank c) = lang.toList ∧
      (printInfo block).dropWhile (fun c => !isBlank c) = rest := by
  rw [hinfo]
  refine takeWhile_append (fun c hc => ?_) rest fun c hc => ?_
  · rw [((h.lang lang hlang).right c hc).left]
    rfl
  · rw [hrest c hc]
    rfl

theorem lang_fenceOf (h : block.Printable) : (fenceOf block).lang = block.lang := by
  unfold Fence.lang fenceOf
  dsimp only
  cases hlang : block.lang with
  | none =>
      have hnone : printInfo block = [] := by
        unfold printInfo
        rw [hlang]
      rw [hnone]
      rfl
  | some lang =>
      obtain ⟨rest, hinfo, hrest, _⟩ := exists_printInfo h hlang
      have hne := toList_ne_nil (h.lang lang hlang).left
      rw [(word_printInfo h hlang hinfo hrest).left, if_neg (by simpa using hne),
        String.ofList_toList]

theorem extra_fenceOf (h : block.Printable) : (fenceOf block).extra = block.info := by
  unfold Fence.extra fenceOf
  dsimp only
  cases hlang : block.lang with
  | none =>
      have hnone : printInfo block = [] := by
        unfold printInfo
        rw [hlang]
      have hinfo : block.info = none := by
        cases hinfo : block.info with
        | none => rfl
        | some info => exact absurd hlang (h.info info hinfo).left
      rw [hnone, hinfo]
      rfl
  | some lang =>
      obtain ⟨rest, hprint, hrest, htrim⟩ := exists_printInfo h hlang
      rw [(word_printInfo h hlang hprint hrest).right, htrim]
      cases hinfo : block.info with
      | none => rfl
      | some info =>
          have hne := toList_ne_nil (h.info info hinfo).right.left
          rw [Option.getD_some, if_neg (by simpa using hne), String.ofList_toList]

theorem codeNode_printCode (h : block.Printable) (number : Nat) :
    Parser.codeNode number (fenceOf block) (splitAt '\n' block.value.toList) =
      placed number (.code block) := by
  have hunindent : (splitAt '\n' block.value.toList).map (fenceOf block).unindent =
      splitAt '\n' block.value.toList := by
    conv => rhs; rw [← List.map_id (splitAt '\n' block.value.toList)]
    apply List.map_congr_left
    intro line _
    unfold Fence.unindent fenceOf
    dsimp only
    rw [Nat.min_zero, List.drop_zero]
    rfl
  have hlength : (printNode (.code block)).length =
      (splitAt '\n' block.value.toList).length + 2 := by
    rw [printNode]
    simp [printCode]
  unfold Parser.codeNode
  rw [lang_fenceOf h, extra_fenceOf h, hunindent, joinLines_splitAt, placed, span, hlength,
    ← h.excerpt]
  unfold Parser.textOf
  rw [String.ofList_toList]
  rfl

end Printer
end LessonPress

import LessonPress.Proofs.Text.Splitting
import Mathlib.Data.List.TakeWhile

/-!
# Laws of lines and of trimming

## Texts that come apart into the lines that they were made of

A list of lines is found again in the text with a line feed after each of them, unless a line
holds a line feed or ends in a carriage return.
-/

namespace LessonPress
namespace Text

/-!
# Lines
-/

theorem lines_cons {c : Char} {rest : List Char} (hfeed : c ≠ '\n')
    (hreturn : c = '\r' -> rest.head? ≠ some '\n') :
    lines (c :: rest) =
      match lines rest with
      | [] => [[c]]
      | line :: following => (c :: line) :: following := by
  have hpair : forall tail, c = '\r' -> rest = '\n' :: tail -> False := by
    intro tail hc htail
    refine hreturn hc ?_
    rw [htail]
    rfl
  exact lines.eq_4 c rest hfeed hpair

theorem lines_append {line : Line} (hfeed : '\n' ∉ line) (hreturn : line.getLast? ≠ some '\r')
    (rest : List Char) : lines (line ++ '\n' :: rest) = line :: lines rest := by
  induction line with
  | nil => rw [List.nil_append, lines]
  | cons c tail ih =>
      have hc : c ≠ '\n' := fun h => hfeed (h ▸ List.mem_cons_self)
      have htail : '\n' ∉ tail := fun h => hfeed (List.mem_cons_of_mem _ h)
      cases tail with
      | nil =>
          have hlast : c ≠ '\r' := by simpa using hreturn
          rw [List.cons_append, lines_cons hc fun h => absurd h hlast, ih htail (by simp)]
      | cons next more =>
          have hnext : next ≠ '\n' := fun h => htail (h ▸ List.mem_cons_self)
          rw [List.getLast?_cons_cons] at hreturn
          rw [List.cons_append, lines_cons hc, ih htail hreturn]
          intro _
          simpa using hnext

/-- A line that is found again in a text: no part of it is taken for the end of a line. -/
structure Whole (line : Line) : Prop where
  feed : '\n' ∉ line
  last : line.getLast? ≠ some '\r'

theorem lines_append_return {line : Line} (hfeed : '\n' ∉ line) (rest : List Char) :
    lines (line ++ '\r' :: '\n' :: rest) = line :: lines rest := by
  induction line with
  | nil => rw [List.nil_append, lines]
  | cons c tail ih =>
      have hc : c ≠ '\n' := fun h => hfeed (h ▸ List.mem_cons_self)
      have htail : '\n' ∉ tail := fun h => hfeed (List.mem_cons_of_mem _ h)
      have hnext : (tail ++ '\r' :: '\n' :: rest).head? ≠ some '\n' := by
        cases tail with
        | nil => simp
        | cons next more =>
            rintro ⟨⟩
            exact htail List.mem_cons_self
      rw [List.cons_append, lines_cons hc fun _ => hnext, ih htail]

def dropReturn (line : Line) : Line :=
  if line.getLast? = some '\r' then line.dropLast else line

theorem Whole.dropReturn {line : Line} (h : Whole line) : dropReturn line = line :=
  if_neg h.last

theorem dropReturn_append {front : Line} (h : front.getLast? ≠ some '\r') (text : Line) :
    dropReturn (front ++ text) = front ++ dropReturn text := by
  cases text with
  | nil =>
      unfold dropReturn
      rw [List.append_nil, if_neg h, if_neg (by simp), List.append_nil]
  | cons c rest =>
      have hlast : (front ++ c :: rest).getLast? = (c :: rest).getLast? := by
        rw [List.getLast?_append, List.getLast?_eq_some_getLast (List.cons_ne_nil c rest),
          Option.some_or]
      unfold dropReturn
      rw [hlast]
      split
      · rw [List.dropLast_append_of_ne_nil (List.cons_ne_nil c rest)]
      · rfl

theorem lines_append_feed {line : Line} (hfeed : '\n' ∉ line) (rest : List Char) :
    lines (line ++ '\n' :: rest) = dropReturn line :: lines rest := by
  unfold dropReturn
  split
  · rename_i hreturn
    obtain ⟨front, rfl⟩ := List.getLast?_eq_some_iff.mp hreturn
    have hfront : '\n' ∉ front := fun h => hfeed (List.mem_append_left _ h)
    rw [List.dropLast_concat, List.append_assoc, List.singleton_append,
      lines_append_return hfront]
  · rename_i hreturn
    exact lines_append hfeed hreturn rest

theorem lines_flatMap_feed {block : List Line} (h : forall line, line ∈ block -> '\n' ∉ line) :
    lines (block.flatMap fun line => line ++ ['\n']) = block.map dropReturn := by
  induction block with
  | nil => rw [List.flatMap_nil, lines, List.map_nil]
  | cons line rest ih =>
      have hrest := ih fun other hother => h other (List.mem_cons_of_mem _ hother)
      rw [List.flatMap_cons, List.append_assoc, List.singleton_append,
        lines_append_feed (h line List.mem_cons_self), hrest, List.map_cons]

theorem lines_flatMap {block : List Line} (h : forall line, line ∈ block -> Whole line) :
    lines (block.flatMap fun line => line ++ ['\n']) = block := by
  rw [lines_flatMap_feed fun line hline => (h line hline).feed]
  exact (List.map_congr_left fun line hline => (h line hline).dropReturn).trans (List.map_id block)

theorem feed_not_mem_of_mem_lines {text : List Char} {line : Line} (h : line ∈ lines text) :
    '\n' ∉ line := by
  fun_induction lines text generalizing line with
  | case1 => cases h
  | case2 rest ih =>
      cases List.mem_cons.mp h with
      | inl hempty =>
          rw [hempty]
          exact List.not_mem_nil
      | inr hrest => exact ih hrest
  | case3 rest ih =>
      cases List.mem_cons.mp h with
      | inl hempty =>
          rw [hempty]
          exact List.not_mem_nil
      | inr hrest => exact ih hrest
  | case4 c rest hfeed _ hnone ih =>
      rw [List.mem_singleton.mp h, List.mem_singleton]
      exact fun heq => hfeed heq.symm
  | case5 c rest hfeed _ first following hlines ih =>
      rw [hlines] at ih
      cases List.mem_cons.mp h with
      | inl hfirst =>
          rw [hfirst, List.mem_cons]
          rintro (heq | hmem)
          · exact hfeed heq.symm
          · exact ih List.mem_cons_self hmem
      | inr hfollowing => exact ih (List.mem_cons_of_mem _ hfollowing)

theorem feed_not_mem_of_mem_linesOf {source : String} {line : Line}
    (h : line ∈ linesOf source) : '\n' ∉ line :=
  feed_not_mem_of_mem_lines h

/-!
# Splitting at line feeds
-/

theorem joinLines_eq_joinWith (block : List Line) : joinLines block = joinWith ['\n'] block := by
  induction block with
  | nil => rfl
  | cons line rest ih =>
      cases rest with
      | nil => rfl
      | cons next more =>
          rw [joinWith_cons_cons, ← ih, List.append_assoc, List.singleton_append]
          rfl

theorem joinLines_splitAt (text : List Char) : joinLines (splitAt '\n' text) = text := by
  rw [joinLines_eq_joinWith, joinWith_splitAt]

theorem joinLines_cons_cons (line next : Line) (more : List Line) :
    joinLines (line :: next :: more) = line ++ '\n' :: joinLines (next :: more) :=
  rfl

theorem joinLines_append (first : Line) (rest : List Line) {more : List Line} (h : more ≠ []) :
    joinLines (first :: (rest ++ more)) = joinLines (first :: rest) ++ '\n' :: joinLines more := by
  induction rest generalizing first with
  | nil =>
      cases more with
      | nil => exact absurd rfl h
      | cons next following => rfl
  | cons next others ih =>
      rw [List.cons_append, joinLines_cons_cons, joinLines_cons_cons, ih, List.append_assoc,
        List.cons_append]

theorem startsWith_iff {opening text : List Char} :
    startsWith opening text = true <-> exists rest, text = opening ++ rest := by
  unfold startsWith
  rw [List.isPrefixOf_iff_prefix]
  constructor
  · rintro ⟨rest, htext⟩
    exact ⟨rest, htext.symm⟩
  · rintro ⟨rest, htext⟩
    exact ⟨rest, htext.symm⟩

theorem startsWith_append (opening rest : List Char) :
    startsWith opening (opening ++ rest) = true :=
  startsWith_iff.mpr ⟨rest, rfl⟩

/-!
# Runs
-/

theorem takeWhile_append {alpha : Type} {accepts : alpha -> Bool} {run : List alpha}
    (hrun : forall x, x ∈ run -> accepts x = true) (rest : List alpha)
    (hrest : forall x, rest.head? = some x -> accepts x = false) :
    (run ++ rest).takeWhile accepts = run ∧ (run ++ rest).dropWhile accepts = rest := by
  have hstop : rest.takeWhile accepts = [] ∧ rest.dropWhile accepts = rest := by
    cases rest with
    | nil => exact ⟨rfl, rfl⟩
    | cons c tail =>
        have hc := hrest c rfl
        constructor
        · exact List.takeWhile_cons_of_neg (Bool.eq_false_iff.mp hc)
        · exact List.dropWhile_cons_of_neg (Bool.eq_false_iff.mp hc)
  rw [List.takeWhile_append_of_pos hrun, List.dropWhile_append_of_pos hrun, hstop.left, hstop.right,
    List.append_nil]
  exact ⟨rfl, rfl⟩

theorem takeWhile_replicate (marker : Char) (count : Nat) {rest : List Char}
    (h : rest.head? ≠ some marker) :
    (List.replicate count marker ++ rest).takeWhile (· == marker) = List.replicate count marker ∧
      (List.replicate count marker ++ rest).dropWhile (· == marker) = rest := by
  refine takeWhile_append (fun c hc => ?_) rest (fun c hc => ?_)
  · exact beq_iff_eq.mpr (List.mem_replicate.mp hc).right
  · rw [beq_eq_false_iff_ne]
    intro heq
    exact h (heq ▸ hc)

theorem findIdx?_append_cons {alpha : Type} {accepts : alpha -> Bool} {front : List alpha}
    (hfront : forall x, x ∈ front -> accepts x = false) {found : alpha}
    (hfound : accepts found = true) (rest : List alpha) :
    (front ++ found :: rest).findIdx? accepts = some front.length := by
  have hnone : front.findIdx? accepts = none := List.findIdx?_eq_none_iff.mpr hfront
  rw [List.findIdx?_append, hnone, List.findIdx?_cons, if_pos hfound]
  simp

/-!
# Texts over several lines
-/

theorem count_joinLines {first : Line} {rest : List Line}
    (hlines : forall line, line ∈ first :: rest -> '\n' ∉ line) :
    (joinLines (first :: rest)).count '\n' = rest.length := by
  induction rest generalizing first with
  | nil => exact List.count_eq_zero.mpr (hlines first List.mem_cons_self)
  | cons next others ih =>
      have hothers := ih fun line hline => hlines line (List.mem_cons_of_mem _ hline)
      rw [joinLines_cons_cons, List.count_append,
        List.count_eq_zero.mpr (hlines first List.mem_cons_self), List.count_cons_self, hothers,
        Nat.zero_add, List.length_cons]

theorem joinLines_append_first (front back : List Char) (more : List Line) :
    joinLines ((front ++ back) :: more) = front ++ joinLines (back :: more) := by
  cases more with
  | nil => rfl
  | cons next others => rw [joinLines_cons_cons, joinLines_cons_cons, List.append_assoc]

theorem exists_of_joinLines {first : Line} {more : List Line} {front tail : List Char}
    (hfront : '\n' ∉ front) (h : joinLines (first :: more) = front ++ tail) :
    exists back, first = front ++ back ∧ joinLines (back :: more) = tail := by
  cases more with
  | nil => exact ⟨tail, h, rfl⟩
  | cons next others =>
      rw [joinLines_cons_cons] at h
      rcases List.append_eq_append_iff.mp h with ⟨between, hline, hrest⟩ | ⟨back, hline, hrest⟩
      · cases between with
        | nil =>
            rw [List.append_nil] at hline
            exact ⟨[], by rw [hline, List.append_nil], hrest⟩
        | cons c between =>
            obtain ⟨rfl, _⟩ := List.cons.inj hrest
            refine absurd ?_ hfront
            rw [hline]
            simp
      · exact ⟨back, hline, hrest.symm⟩

theorem joinLines_within {first text tail others : List Char} (hfirst : '\n' ∉ first)
    (h : first = text ++ tail) (hothers : forall c, others.head? = some c -> c = '\n') :
    text.count '\n' = 0 ∧
      joinLines [first] = text ++ (tail ++ others).takeWhile (· != '\n') := by
  subst h
  obtain ⟨htext, htail⟩ := not_or.mp (mt List.mem_append.mpr hfirst)
  have hrun : forall c, c ∈ tail -> (c != '\n') = true :=
    fun c hc => bne_iff_ne.mpr fun heq => htail (heq ▸ hc)
  have hstop : forall c, others.head? = some c -> (c != '\n') = false := by
    intro c hc
    rw [hothers c hc]
    rfl
  refine ⟨List.count_eq_zero.mpr htext, ?_⟩
  rw [(takeWhile_append hrun others hstop).left]
  rfl

theorem exists_joinLines_eq {first : Line} {rest : List Line}
    (hlines : forall line, line ∈ first :: rest -> '\n' ∉ line) {text after : List Char}
    (h : joinLines (first :: rest) = text ++ after) :
    exists more following, rest = more ++ following ∧ text.count '\n' = more.length ∧
      joinLines (first :: more) = text ++ after.takeWhile (· != '\n') := by
  have hfirst := hlines first List.mem_cons_self
  induction rest generalizing first text with
  | nil =>
      have hnone : forall c, ([] : List Char).head? = some c -> c = '\n' := nofun
      have hwithin := joinLines_within hfirst h hnone
      rw [List.append_nil] at hwithin
      exact ⟨[], [], rfl, hwithin⟩
  | cons next others ih =>
      have hfeed : forall c, ('\n' :: joinLines (next :: others)).head? = some c -> c = '\n' := by
        rintro c ⟨⟩
        rfl
      rw [joinLines_cons_cons] at h
      rcases List.append_eq_append_iff.mp h with ⟨front, htext, hrest⟩ | ⟨tail, hline, hafter⟩
      · cases front with
        | nil =>
            rw [List.nil_append] at hrest
            rw [List.append_nil] at htext
            have hline : first = text ++ [] := by
              rw [htext, List.append_nil]
            have hwithin := joinLines_within hfirst hline hfeed
            rw [List.nil_append, hrest] at hwithin
            exact ⟨[], next :: others, rfl, hwithin⟩
        | cons c front =>
            rw [List.cons_append] at hrest
            obtain ⟨rfl, hjoin⟩ := List.cons.inj hrest
            have hothers := fun line hline => hlines line (List.mem_cons_of_mem _ hline)
            obtain ⟨more, following, rfl, hcount, hmore⟩ :=
              ih hothers hjoin (hothers next List.mem_cons_self)
            refine ⟨next :: more, following, rfl, ?_, ?_⟩
            · rw [htext, List.count_append, List.count_eq_zero.mpr hfirst, List.count_cons_self,
                hcount, Nat.zero_add, List.length_cons]
            · rw [joinLines_cons_cons, hmore, htext, List.append_assoc, List.cons_append]
      · have hwithin := joinLines_within hfirst hline hfeed
        rw [← hafter] at hwithin
        exact ⟨[], next :: others, rfl, hwithin⟩

/-!
# Trimming
-/

theorem trimStart_eq_nil_iff (text : List Char) : trimStart text = [] <-> isBlankLine text = true :=
  List.dropWhile_eq_nil_iff.trans List.all_eq_true.symm

theorem trimStart_of_not_blank {c : Char} (h : isBlank c = false) (rest : List Char) :
    trimStart (c :: rest) = c :: rest :=
  List.dropWhile_cons_of_neg (Bool.eq_false_iff.mp h)

def Trimmed (text : List Char) : Prop :=
  trim text = text

instance (text : List Char) : Decidable (Trimmed text) :=
  inferInstanceAs (Decidable (trim text = text))

theorem trimEnd_of_getLast? {text : List Char}
    (h : forall c, text.getLast? = some c -> isBlank c = false) : trimEnd text = text := by
  unfold trimEnd
  cases hreverse : text.reverse with
  | nil =>
      rw [List.reverse_eq_nil_iff.mp hreverse]
      rfl
  | cons last front =>
      have hlast : text.getLast? = some last := by
        rw [List.getLast?_eq_head?_reverse, hreverse]
        rfl
      rw [List.dropWhile_cons, h last hlast, if_neg Bool.false_ne_true, ← hreverse,
        List.reverse_reverse]

theorem trimStart_of_head? {text : List Char}
    (h : forall c, text.head? = some c -> isBlank c = false) : trimStart text = text := by
  cases text with
  | nil => rfl
  | cons c rest => exact trimStart_of_not_blank (h c rfl) rest

theorem trimmed_of_ends {text : List Char}
    (hhead : forall c, text.head? = some c -> isBlank c = false)
    (hlast : forall c, text.getLast? = some c -> isBlank c = false) : Trimmed text := by
  unfold Trimmed trim
  rw [trimStart_of_head? hhead, trimEnd_of_getLast? hlast]

theorem length_dropWhile_le (accepts : Char -> Bool) (text : List Char) :
    (text.dropWhile accepts).length ≤ text.length :=
  (List.dropWhile_sublist accepts).length_le

theorem length_trimEnd_le (text : List Char) : (trimEnd text).length ≤ text.length := by
  unfold trimEnd
  have hdropped := length_dropWhile_le isBlank text.reverse
  rw [List.length_reverse] at hdropped
  rw [List.length_reverse]
  exact hdropped

theorem Trimmed.head? {text : List Char} (h : Trimmed text) {c : Char}
    (hc : text.head? = some c) : isBlank c = false := by
  cases text with
  | nil => cases hc
  | cons first rest =>
      cases hc
      cases hblank : isBlank c with
      | false => rfl
      | true =>
          -- a blank in front would be lost
          have hlength := congrArg List.length h
          unfold trim trimStart at hlength
          rw [List.dropWhile_cons, if_pos hblank] at hlength
          have hdropped := length_dropWhile_le isBlank rest
          have hend := length_trimEnd_le (rest.dropWhile isBlank)
          rw [List.length_cons] at hlength
          omega

theorem Trimmed.trimStart {text : List Char} (h : Trimmed text) : trimStart text = text :=
  trimStart_of_head? fun _ hc => h.head? hc

theorem Trimmed.trimEnd {text : List Char} (h : Trimmed text) : trimEnd text = text := by
  have htrim : Text.trim text = text := h
  unfold Text.trim at htrim
  rw [h.trimStart] at htrim
  exact htrim

theorem Trimmed.getLast? {text : List Char} (h : Trimmed text) {c : Char}
    (hc : text.getLast? = some c) : isBlank c = false := by
  rw [List.getLast?_eq_some_iff] at hc
  obtain ⟨front, rfl⟩ := hc
  cases hblank : isBlank c with
  | false => rfl
  | true =>
      have hlength := congrArg List.length h.trimEnd
      unfold Text.trimEnd at hlength
      rw [List.reverse_append, List.reverse_singleton, List.singleton_append, List.dropWhile_cons,
        if_pos hblank, List.length_reverse, List.length_append] at hlength
      have hdropped := length_dropWhile_le isBlank front.reverse
      rw [List.length_reverse] at hdropped
      simp at hlength
      omega

theorem trim_cons_of_blank {c : Char} (hc : isBlank c = true) (text : List Char) :
    trim (c :: text) = trim text := by
  unfold trim trimStart
  rw [List.dropWhile_cons, if_pos hc]

theorem Trimmed.not_blank {text : List Char} (h : Trimmed text) (hne : text ≠ []) :
    isBlankLine text = false := by
  cases text with
  | nil => exact absurd rfl hne
  | cons c rest =>
      unfold isBlankLine
      rw [List.all_cons, h.head? rfl, Bool.false_and]

theorem prefix_trimEnd (text : List Char) : trimEnd text <+: text := by
  have hsuffix : text.reverse.dropWhile isBlank <:+ text.reverse :=
    List.dropWhile_suffix isBlank
  have hreverse := List.reverse_prefix.mpr hsuffix
  rw [List.reverse_reverse] at hreverse
  exact hreverse

theorem prefix_trim (text : List Char) : trim text <+: trimStart text :=
  prefix_trimEnd (trimStart text)

theorem infix_trim (text : List Char) : trim text <:+: text :=
  (prefix_trim text).isInfix.trans (List.dropWhile_suffix isBlank).isInfix

theorem trimStart_append {gap : List Char} (h : isBlankLine gap = true) (text : List Char) :
    trimStart (gap ++ text) = trimStart text :=
  List.dropWhile_append_of_pos (List.all_eq_true.mp h)

theorem trimEnd_append {front : List Char}
    (h : forall c, front.getLast? = some c -> isBlank c = false) (text : List Char) :
    trimEnd (front ++ text) = front ++ trimEnd text := by
  have hfront := trimEnd_of_getLast? h
  unfold trimEnd at hfront ⊢
  rw [List.reverse_append, List.dropWhile_append]
  split
  · rename_i hempty
    rw [hfront, List.isEmpty_iff.mp hempty, List.reverse_nil, List.append_nil]
  · rw [List.reverse_append, List.reverse_reverse]

theorem trimEnd_eq_nil_iff (text : List Char) :
    trimEnd text = [] <-> isBlankLine text = true := by
  have hblank : isBlankLine text.reverse = isBlankLine text := List.all_reverse
  rw [← hblank, ← trimStart_eq_nil_iff text.reverse]
  exact List.reverse_eq_nil_iff

theorem trim_eq_nil_iff (text : List Char) : trim text = [] <-> isBlankLine text = true := by
  unfold trim
  rw [trimEnd_eq_nil_iff]
  constructor
  · intro h
    cases hstart : trimStart text with
    | nil => exact (trimStart_eq_nil_iff text).mp hstart
    | cons c rest =>
        -- what trimming leaves does not start with a blank
        have hblank := List.head?_dropWhile_not isBlank text
        unfold trimStart at hstart
        rw [hstart] at hblank
        unfold trimStart at h
        rw [hstart, isBlankLine, List.all_cons, Bool.and_eq_true] at h
        rw [List.head?_cons] at hblank
        dsimp only at hblank
        rw [h.left] at hblank
        cases hblank
  · intro h
    rw [(trimStart_eq_nil_iff text).mpr h]
    rfl

theorem isEmpty_trim (text : List Char) : (trim text).isEmpty = isBlankLine text := by
  rw [Bool.eq_iff_iff, List.isEmpty_iff, trim_eq_nil_iff]

theorem exists_trim (text : List Char) :
    exists before after, isBlankLine before = true ∧ isBlankLine after = true ∧
      text = before ++ trim text ++ after := by
  have hrun : forall run : List Char, isBlankLine (run.takeWhile isBlank) = true := fun _ =>
    List.all_takeWhile
  have hstart : text.takeWhile isBlank ++ trimStart text = text := List.takeWhile_append_dropWhile
  have hend : trim text ++ ((trimStart text).reverse.takeWhile isBlank).reverse =
      trimStart text := by
    unfold trim trimEnd
    rw [← List.reverse_append, List.takeWhile_append_dropWhile, List.reverse_reverse]
  refine ⟨text.takeWhile isBlank, ((trimStart text).reverse.takeWhile isBlank).reverse,
    hrun text, ?_, ?_⟩
  · unfold isBlankLine
    rw [List.all_reverse]
    exact hrun _
  · rw [List.append_assoc, hend, hstart]

theorem Trimmed.trim_between {before middle after : List Char} (h : Trimmed middle)
    (hbefore : isBlankLine before = true) (hafter : isBlankLine after = true) :
    trim (before ++ middle ++ after) = middle := by
  have hlost : Text.trimEnd after = [] := (trimEnd_eq_nil_iff after).mpr hafter
  unfold trim
  rw [List.append_assoc, trimStart_append hbefore]
  cases middle with
  | nil =>
      rw [List.nil_append, (trimStart_eq_nil_iff after).mpr hafter]
      rfl
  | cons c rest =>
      rw [List.cons_append, trimStart_of_not_blank (h.head? rfl), ← List.cons_append,
        trimEnd_append (fun _ hlast => h.getLast? hlast), hlost, List.append_nil]

/-!
# Whole lines
-/

theorem Trimmed.whole {line : Line} (h : Trimmed line) (hfeed : '\n' ∉ line) : Whole line where
  feed := hfeed
  last hreturn := by
    have hblank := h.getLast? hreturn
    exact absurd hblank (by decide)

theorem whole_nil : Whole [] where
  feed := List.not_mem_nil
  last := nofun

end Text
end LessonPress

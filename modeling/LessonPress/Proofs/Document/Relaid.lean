import LessonPress.Proofs.Document.Closings
import LessonPress.Proofs.Document.Substance

/-!
# Tags with other blanks

## The lines of a tag whose blanks are laid out in another way

The blanks between the name, the attributes and the end of a tag may be any others, also line
feeds.  The tag stays the same, and each line of it but the first starts with a name, with the
end of the tag or is blank.
-/

namespace LessonPress

open Text

namespace Tag

structure Respaced (gap other : List Char) : Prop where
  blank : isBlankLine gap = true
  blankOther : isBlankLine other = true
  both : gap = [] <-> other = []

/-- The two texts spell the attributes and the end of one tag with other blanks between them. -/
inductive Relaid : List Char -> List Char -> List Attribute -> Bool -> Prop where
  | opening {gap other : List Char} : Respaced gap other ->
      Relaid (gap ++ ['>']) (other ++ ['>']) [] false
  | selfClosing {gap other : List Char} : Respaced gap other ->
      Relaid (gap ++ ['/', '>']) (other ++ ['/', '>']) [] true
  | entry {gap other text rest after : List Char} {entry : Attribute} {entries : List Attribute}
      {selfClosing : Bool} : Respaced gap other -> entry.Spelled text -> Apart entry rest ->
      Relaid rest after entries selfClosing ->
      Relaid (gap ++ (text ++ rest)) (other ++ (text ++ after)) (entry :: entries) selfClosing

theorem Respaced.head? {gap other rest after : List Char} (h : Respaced gap other)
    (hrest : rest.head? = after.head?)
    (hgap : forall c, (gap ++ rest).head? = some c -> isNamePart c = false) :
    forall c, (other ++ after).head? = some c -> isNamePart c = false := by
  cases gap with
  | nil =>
      rw [h.both.mp rfl, List.nil_append, ← hrest]
      exact hgap
  | cons blank others =>
      cases other with
      | nil => cases h.both.mpr rfl
      | cons c more =>
          rintro d ⟨⟩
          exact Cursor.not_isNamePart_of_isBlankLine h.blankOther rfl

variable {text other : List Char} {entries : List Attribute} {selfClosing : Bool}

theorem Relaid.apart (h : Relaid text other entries selfClosing)
    (htext : forall c, text.head? = some c -> isNamePart c = false) :
    forall c, other.head? = some c -> isNamePart c = false := by
  cases h with
  | opening hgap => exact hgap.head? rfl htext
  | selfClosing hgap => exact hgap.head? rfl htext
  | @entry gap other text rest after _ _ _ hgap hentry _ _ =>
      obtain ⟨c, tail, rfl, _⟩ := Cursor.exists_start_of_spelled hentry
      have hhead : (c :: tail ++ rest).head? = (c :: tail ++ after).head? := rfl
      exact hgap.head? hhead htext

theorem Relaid.spelled (h : Relaid text other entries selfClosing) :
    Spelled text entries selfClosing := by
  induction h with
  | opening hgap => exact .opening hgap.blank
  | selfClosing hgap => exact .selfClosing hgap.blank
  | entry hgap hentry hapart _ ih => exact .entry hgap.blank hentry hapart ih

theorem Relaid.spelled_other (h : Relaid text other entries selfClosing) :
    Spelled other entries selfClosing := by
  induction h with
  | opening hgap => exact .opening hgap.blankOther
  | selfClosing hgap => exact .selfClosing hgap.blankOther
  | entry hgap hentry hapart hrest ih =>
      exact .entry hgap.blankOther hentry (fun hbare => hrest.apart (hapart hbare)) ih

/-!
# Lines that go on with a tag
-/

theorem feed_mem_append {front back before suffix : List Char}
    (h : front ++ back = before ++ '\n' :: suffix) :
    (exists tail, front = before ++ '\n' :: tail ∧ suffix = tail ++ back) ∨
      exists between, back = between ++ '\n' :: suffix := by
  rcases List.append_eq_append_iff.mp h with ⟨between, _, hback⟩ | ⟨tail, hfront, hsuffix⟩
  · exact Or.inr ⟨between, hback⟩
  · cases tail with
    | nil => exact Or.inr ⟨[], hsuffix.symm⟩
    | cons c tail =>
        rw [List.cons_append] at hsuffix
        obtain ⟨rfl, hrest⟩ := List.cons.inj hsuffix
        exact Or.inl ⟨tail, hfront, hrest⟩

theorem trimStart_behind_feed {gap before tail : List Char} (hgap : isBlankLine gap = true)
    (h : gap = before ++ '\n' :: tail) (rest : List Char) :
    trimStart (tail ++ rest) = trimStart rest := by
  apply trimStart_append
  unfold isBlankLine at hgap ⊢
  rw [h, List.all_append, List.all_cons, Bool.and_eq_true, Bool.and_eq_true] at hgap
  exact hgap.right.right

theorem start_behind_gap {gap back before suffix : List Char} (hgap : isBlankLine gap = true)
    {c : Char} {rest : List Char} (hback : back = c :: rest)
    (hc : c = '>' ∨ c = '/' ∨ isNameStart c = true) (h : gap ++ back = before ++ '\n' :: suffix) :
    (trimStart suffix = c :: rest) ∨ exists between, back = between ++ '\n' :: suffix := by
  rcases feed_mem_append h with ⟨tail, hfront, hsuffix⟩ | hbehind
  · refine Or.inl ?_
    rw [hsuffix, trimStart_behind_feed hgap hfront, hback]
    exact trimStart_of_not_blank (Cursor.not_blank_of_start hc) rest
  · exact Or.inr hbehind

theorem Relaid.exists_start (h : Relaid text other entries selfClosing) (htext : '\n' ∉ text)
    {remainder before suffix : List Char} (hremainder : '\n' ∉ remainder)
    (hfeed : other ++ remainder = before ++ '\n' :: suffix) :
    exists c rest, trimStart suffix = c :: rest ∧
      (c = '>' ∨ c = '/' ∨ isNameStart c = true) := by
  -- over the parts of the tag: the line feed is in the blanks here, or further on
  induction h generalizing before with
  | @opening gap other hgap =>
      rw [List.append_assoc, List.singleton_append] at hfeed
      rcases start_behind_gap hgap.blankOther rfl (Or.inl rfl) hfeed with hstart | ⟨between, hback⟩
      · exact ⟨_, _, hstart, Or.inl rfl⟩
      · have hmem : '\n' ∈ '>' :: remainder := by
          rw [hback]
          simp
        exact absurd hmem (by simpa using hremainder)
  | @selfClosing gap other hgap =>
      rw [List.append_assoc, List.cons_append, List.singleton_append] at hfeed
      rcases start_behind_gap hgap.blankOther rfl (Or.inr (Or.inl rfl)) hfeed with
        hstart | ⟨between, hback⟩
      · exact ⟨_, _, hstart, Or.inr (Or.inl rfl)⟩
      · have hmem : '\n' ∈ '/' :: '>' :: remainder := by
          rw [hback]
          simp
        exact absurd hmem (by simpa using hremainder)
  | @entry gap other text rest after _ _ _ hgap hentry _ _ ih =>
      obtain ⟨c, tail, rfl, hc⟩ := Cursor.exists_start_of_spelled hentry
      obtain ⟨_, hrest⟩ := not_or.mp (mt List.mem_append.mpr htext)
      obtain ⟨hname, hafter⟩ := not_or.mp (mt List.mem_append.mpr hrest)
      rw [List.append_assoc, List.append_assoc] at hfeed
      rcases start_behind_gap hgap.blankOther rfl (Or.inr (Or.inr hc)) hfeed with
        hstart | ⟨between, hback⟩
      · exact ⟨_, _, hstart, Or.inr (Or.inr hc)⟩
      · have hparts : (c :: tail) ++ (after ++ remainder) = between ++ '\n' :: suffix := hback
        rcases feed_mem_append hparts with ⟨inside, hfront, _⟩ | ⟨behind, hbehind⟩
        · refine absurd ?_ hname
          rw [hfront]
          simp
        · exact ih hafter hbehind

end Tag

namespace Parser

def Plain (line : Line) : Prop :=
  isBlankLine line = true ∨ exists c rest, trimStart line = c :: rest ∧
    (c = '>' ∨ c = '/' ∨ isNameStart c = true)

theorem exists_between_feeds (first : Line) {line : Line} {more : List Line} (h : line ∈ more) :
    exists before after, joinLines (first :: more) = before ++ '\n' :: (line ++ after) ∧
      forall c, after.head? = some c -> c = '\n' := by
  induction more generalizing first with
  | nil => cases h
  | cons next others ih =>
      rw [joinLines_cons_cons]
      cases List.mem_cons.mp h with
      | inl heq =>
          rw [heq]
          cases others with
          | nil => exact ⟨first, [], by rw [List.append_nil]; rfl, nofun⟩
          | cons other rest =>
              refine ⟨first, '\n' :: joinLines (other :: rest), rfl, ?_⟩
              rintro c ⟨⟩
              rfl
      | inr hmem =>
          obtain ⟨before, after, hjoin, hafter⟩ := ih next hmem
          refine ⟨first ++ '\n' :: before, after, ?_, hafter⟩
          rw [hjoin, List.append_assoc, List.cons_append]

/-!
# The lines of a tag
-/

/-- A line with a tag, and the lines on which the tag stands with other blanks. -/
structure Relined (tag : Tag) (line first : Line) (more : List Line)
    (indent text other remainder : List Char) : Prop where
  blank : isBlankLine indent = true
  relaid : Tag.Relaid text other tag.attributes tag.selfClosing
  line : line = indent ++ '<' :: (tag.name.toList ++ (text ++ remainder))
  lines : joinLines (first :: more) =
    indent ++ '<' :: (tag.name.toList ++ (other ++ remainder))

structure TagLine (tag : Tag) (line : Line) (text : List Char) : Prop where
  kind : LineKind.of line = .element
  named : forall c, c ∈ tag.name.toList -> isNamePart c = true
  apart : forall c, text.head? = some c -> isNamePart c = false

section Relined

variable {tag : Tag} {line first : Line} {more : List Line}
  {indent text other remainder : List Char}
  (h : Relined tag line first more indent text other remainder)
include h

theorem Relined.feeds (hline : '\n' ∉ line) :
    '\n' ∉ indent ∧ '\n' ∉ tag.name.toList ∧ '\n' ∉ text ∧ '\n' ∉ remainder := by
  rw [h.line] at hline
  simpa only [List.mem_append, List.mem_cons, not_or, true_and, ne_eq, Char.reduceEq,
    not_false_eq_true, and_assoc] using hline

theorem Relined.exists_first (hline : '\n' ∉ line) :
    exists back, first = indent ++ '<' :: (tag.name.toList ++ back) ∧
      trimStart first = '<' :: (tag.name.toList ++ back) ∧
      joinLines (back :: more) = other ++ remainder := by
  obtain ⟨hindent, hname, _, _⟩ := h.feeds hline
  have hfront : '\n' ∉ indent ++ '<' :: tag.name.toList := by
    simpa using ⟨hindent, hname⟩
  have hjoin : joinLines (first :: more) =
      (indent ++ '<' :: tag.name.toList) ++ (other ++ remainder) := by
    rw [h.lines, List.append_assoc, List.cons_append]
  obtain ⟨back, hback, hrest⟩ := exists_of_joinLines hfront hjoin
  rw [List.append_assoc, List.cons_append] at hback
  refine ⟨back, hback, ?_, hrest⟩
  rw [hback, trimStart_append h.blank]
  exact trimStart_of_not_blank (by decide) _

theorem Relined.trimStart_line :
    trimStart line = '<' :: (tag.name.toList ++ (text ++ remainder)) := by
  rw [h.line, trimStart_append h.blank]
  exact trimStart_of_not_blank (by decide) _

/-- The lines behind the first one are neither closing lines nor fences. -/
theorem Relined.plain (hline : '\n' ∉ line) : forall next, next ∈ more -> Plain next := by
  intro next hnext
  obtain ⟨_, _, htext, hremainder⟩ := h.feeds hline
  obtain ⟨back, _, _, hjoin⟩ := h.exists_first hline
  obtain ⟨before, after, hbetween, hafter⟩ := exists_between_feeds back hnext
  rw [hjoin] at hbetween
  obtain ⟨c, rest, hstart, hc⟩ := h.relaid.exists_start htext hremainder hbetween
  by_cases hblank : isBlankLine next = true
  · exact Or.inl hblank
  · cases hnextStart : trimStart next with
    | nil => exact absurd ((trimStart_eq_nil_iff next).mp hnextStart) hblank
    | cons d following =>
        have hboth : trimStart (next ++ after) = d :: (following ++ after) := by
          unfold trimStart at hnextStart ⊢
          rw [List.dropWhile_append, hnextStart]
          rfl
        rw [hboth] at hstart
        cases hstart
        exact Or.inr ⟨c, following, hnextStart, hc⟩

theorem Relined.tagLine {tagLines : List Line} {spelled behind : List Char}
    (hkind : LineKind.of line = .element) (hopening : Opening line tagLines tag spelled behind) :
    TagLine tag line text where
  kind := hkind
  named := hopening.named
  apart := by
    intro c hc
    obtain ⟨back, hback, hapart⟩ := hopening.exists_first
    rw [h.trimStart_line] at hback
    apply hapart
    rw [← List.append_cancel_left (List.cons.inj hback).right, List.head?_append, hc]
    rfl

variable (htag : TagLine tag line text)
include htag

theorem Relined.exists_name : exists c rest, tag.name.toList = c :: rest ∧
    LineKind.isUpper c = true := by
  obtain ⟨c, rest, hstart, hupper⟩ := LineKind.exists_opening htag.kind
  rw [h.trimStart_line] at hstart
  have hrest := (List.cons.inj hstart).right
  cases hname : tag.name.toList with
  | nil =>
      obtain ⟨gap, d, tail, htext, _⟩ := Cursor.exists_start_of_spelledTag h.relaid.spelled
      have hhead : text.head? = some c := by
        rw [hname, List.nil_append, htext] at hrest
        rw [htext]
        cases gap <;> cases hrest <;> rfl
      have hpart := htag.apart c hhead
      rw [isNamePart_of_isUpper hupper] at hpart
      cases hpart
  | cons d following =>
      rw [hname] at hrest
      cases hrest
      exact ⟨c, following, rfl, hupper⟩

variable (hline : '\n' ∉ line)
include hline

theorem Relined.opening : Opening line [] tag text remainder where
  named := htag.named
  spelled := h.relaid.spelled
  apart := htag.apart
  joined := h.trimStart_line
  feeds := Cursor.lineFeeds_eq_zero (h.feeds hline).right.right.left
  ended := (h.feeds hline).right.right.right

theorem Relined.kind_other : LineKind.of first = .element := by
  obtain ⟨back, _, hstart, _⟩ := h.exists_first hline
  obtain ⟨c, rest, hname, hupper⟩ := h.exists_name htag
  rw [hname] at hstart
  exact LineKind.of_opening hstart hupper

variable (hlines : forall next, next ∈ first :: more -> '\n' ∉ next)
include hlines

theorem Relined.opening_other : Opening first more tag other remainder where
  named := htag.named
  spelled := h.relaid.spelled_other
  apart := h.relaid.apart htag.apart
  joined := by
    obtain ⟨back, _, hstart, hjoin⟩ := h.exists_first hline
    rw [hstart, ← List.cons_append, joinLines_append_first, hjoin, List.cons_append]
  feeds := by
    obtain ⟨hindent, hname, _, hremainder⟩ := h.feeds hline
    have hcount := count_joinLines hlines
    rw [h.lines, List.count_append, List.count_eq_zero.mpr hindent,
      List.count_cons_of_ne (by decide), List.count_append, List.count_eq_zero.mpr hname,
      List.count_append, List.count_eq_zero.mpr hremainder, Nat.zero_add, Nat.zero_add] at hcount
    exact hcount
  ended := (h.feeds hline).right.right.right

theorem Relined.kept : keptLines (first :: more) = Text.kept line := by
  have hone := kept_of_opening (h.opening htag hline)
  rw [kept_of_opening (h.opening_other htag hline hlines), ← hone]
  rfl

end Relined

end Parser
end LessonPress

import LessonPress.Document.Parser
import LessonPress.Proofs.Document.Search
import LessonPress.Proofs.Document.Spelling

/-!
# Extents of elements

## What an element is made of, and what does not matter to it

An element reaches from the line of its opening tag to the last line of the tag, or to the
line that closes it.  It is found there whatever lines follow.
-/

namespace LessonPress

open Text

namespace Parser

/-!
# Opening tags
-/

/-- The tag that opens on a line and goes on over more lines: the text from behind its name
to its end, and what remains of its last line. -/
structure Opening (first : Line) (more : List Line) (tag : Tag) (text remainder : List Char) :
    Prop where
  named : forall c, c ∈ tag.name.toList -> isNamePart c = true
  spelled : Tag.Spelled text tag.attributes tag.selfClosing
  apart : forall c, text.head? = some c -> isNamePart c = false
  joined : joinLines (trimStart first :: more) = '<' :: (tag.name.toList ++ (text ++ remainder))
  feeds : Cursor.lineFeeds text = more.length
  ended : '\n' ∉ remainder

theorem exists_joinLines_append (first : Line) (more following : List Line) :
    exists tail, joinLines (first :: (more ++ following)) = joinLines (first :: more) ++ tail ∧
      forall c, tail.head? = some c -> c = '\n' := by
  cases following with
  | nil => exact ⟨[], by rw [List.append_nil, List.append_nil], nofun⟩
  | cons next others =>
      refine ⟨'\n' :: joinLines (next :: others),
        joinLines_append first more (List.cons_ne_nil _ _), ?_⟩
      rintro c ⟨⟩
      rfl

theorem Opening.readTag {first : Line} {more : List Line} {tag : Tag} {text remainder : List Char}
    (h : Opening first more tag text remainder) (following : List Line) (number : Nat) :
    exists after, Cursor.readTag
        ⟨(joinLines (trimStart first :: (more ++ following))).drop 1, number⟩ =
          .ok (tag, ⟨after, number + more.length⟩) ∧
      after.takeWhile (· != '\n') = remainder := by
  obtain ⟨tail, hjoin, htail⟩ := exists_joinLines_append (trimStart first) more following
  have hrun : forall c, c ∈ remainder -> (c != '\n') = true :=
    fun c hc => bne_iff_ne.mpr fun heq => h.ended (heq ▸ hc)
  have hstop : forall c, tail.head? = some c -> (c != '\n') = false := by
    intro c hc
    rw [htail c hc]
    rfl
  have hread := Cursor.readTag_append h.named h.spelled h.apart (remainder ++ tail) number
  rw [h.feeds, String.ofList_toList] at hread
  refine ⟨remainder ++ tail, ?_, (takeWhile_append hrun tail hstop).left⟩
  rw [hjoin, h.joined, List.cons_append, List.drop_one, List.tail_cons, List.append_assoc,
    List.append_assoc]
  exact hread

theorem Opening.exists_first {first : Line} {more : List Line} {tag : Tag}
    {text remainder : List Char} (h : Opening first more tag text remainder) :
    exists back, trimStart first = '<' :: (tag.name.toList ++ back) ∧
      forall c, back.head? = some c -> isNamePart c = false := by
  have hfront : '\n' ∉ '<' :: tag.name.toList := by
    simpa using Cursor.feed_not_mem_of_named h.named
  obtain ⟨back, hback, hrest⟩ := exists_of_joinLines hfront h.joined
  refine ⟨back, hback, ?_⟩
  intro c hc
  obtain ⟨tail, rfl⟩ := List.head?_eq_some_iff.mp hc
  obtain ⟨gap, d, others, htext, _⟩ := Cursor.exists_start_of_spelledTag h.spelled
  obtain ⟨e, following, hne⟩ : exists e following, text = e :: following := by
    rw [htext]
    cases gap <;> exact ⟨_, _, rfl⟩
  have hhead : c = e := by
    rw [hne] at hrest
    cases more <;> exact (List.cons.inj hrest).left
  apply h.apart
  rw [hne, hhead]
  rfl

/-- A tag that ends on its first line ends nowhere else. -/
theorem Opening.unique {first : Line} {more : List Line} {tag : Tag}
    {text other remainder behind : List Char} (h : Opening first more tag text remainder)
    (hone : Opening first [] tag other behind) : more = [] ∧ remainder = behind := by
  obtain ⟨after, hread, hafter⟩ := h.readTag [] 0
  obtain ⟨rest, hreadOne, hrest⟩ := hone.readTag more 0
  rw [List.append_nil] at hread
  rw [List.nil_append, hread] at hreadOne
  cases more with
  | nil =>
      cases hreadOne
      exact ⟨rfl, hafter.symm.trans hrest⟩
  | cons next others => cases hreadOne

theorem not_feed_of_trimStart {first : Line} {rest : List Line}
    (hlines : forall line, line ∈ first :: rest -> '\n' ∉ line) :
    forall line, line ∈ trimStart first :: rest -> '\n' ∉ line := by
  intro line hline
  cases List.mem_cons.mp hline with
  | inl heq =>
      rw [heq]
      exact fun hmem => hlines first List.mem_cons_self
        ((List.dropWhile_sublist isBlank).subset hmem)
  | inr hmem => exact hlines line (List.mem_cons_of_mem _ hmem)

theorem exists_opening_of_readTag {first : Line} {rest : List Line} {number : Nat} {tag : Tag}
    {cursor : Cursor} (hkind : LineKind.of first = .element)
    (hlines : forall line, line ∈ first :: rest -> '\n' ∉ line)
    (h : Cursor.readTag ⟨(joinLines (trimStart first :: rest)).drop 1, number⟩ =
      .ok (tag, cursor)) :
    exists more following text, rest = more ++ following ∧
      cursor.line = number + more.length ∧
      Opening first more tag text (cursor.rest.takeWhile (· != '\n')) := by
  obtain ⟨c, tail, hstart, _⟩ := LineKind.exists_opening hkind
  obtain ⟨text, hnamed, hspelled, hapart, hrest, hline⟩ := Cursor.spelled_of_readTag h
  have hjoin : joinLines (trimStart first :: rest) =
      ('<' :: (tag.name.toList ++ text)) ++ cursor.rest := by
    have hhead : exists others, joinLines (trimStart first :: rest) = '<' :: others := by
      rw [hstart]
      cases rest <;> exact ⟨_, rfl⟩
    obtain ⟨others, hothers⟩ := hhead
    dsimp only at hrest
    rw [hothers, List.drop_one, List.tail_cons] at hrest
    rw [hothers, hrest, List.cons_append, List.append_assoc]
  obtain ⟨more, following, hmore, hcount, hlast⟩ :=
    exists_joinLines_eq (not_feed_of_trimStart hlines) hjoin
  have hname := Cursor.feed_not_mem_of_named hnamed
  have hfeeds : Cursor.lineFeeds text = more.length := by
    rw [← hcount, List.count_cons_of_ne (by decide), List.count_append,
      List.count_eq_zero.mpr hname, Nat.zero_add]
    rfl
  refine ⟨more, following, text, hmore, by rw [hline, hfeeds], hnamed, hspelled, hapart, ?_,
    hfeeds, ?_⟩
  · rw [hlast, List.cons_append, List.append_assoc]
  · intro hmem
    have htaken := List.all_eq_true.mp List.all_takeWhile _ hmem
    exact absurd htaken (by decide)

/-!
# What follows a tag
-/

/-- The children of an element that ends on the last line of its tag, with the text that
follows the tag there. -/
inductive Inline (tag : Tag) (remainder : List Char) (line : Nat) : List Node -> Prop where
  | selfClosing : tag.selfClosing = true -> isBlankLine remainder = true ->
      Inline tag remainder line []
  | closed {inner : List Char} : tag.selfClosing = false ->
      stripEnding (closingText tag.name) (trim remainder) = some inner ->
      Inline tag remainder line (inlineChildren inner line)

theorem closingText_ne_nil (name : String) : closingText name ≠ [] := by
  unfold closingText
  nofun

theorem filled_of_stripEnding {name : String} {text inner : List Char}
    (h : stripEnding (closingText name) text = some inner) : text.isEmpty = false := by
  unfold stripEnding at h
  split at h
  · rename_i hsuffix
    cases text with
    | nil =>
        have hnone := List.suffix_nil.mp (List.isSuffixOf_iff_suffix.mp hsuffix)
        exact absurd hnone (closingText_ne_nil name)
    | cons c rest => rfl
  · cases h

section Opening

variable {first : Line} {more : List Line} {tag : Tag} {text remainder : List Char}

theorem Opening.readExtent_closed (h : Opening first more tag text remainder) {number : Nat}
    {children : List Node} (hinline : Inline tag remainder (number + more.length) children)
    (following : List Line) :
    readExtent number first (more ++ following) = .ok ⟨tag, more.length, .inl children⟩ := by
  obtain ⟨after, hread, hafter⟩ := h.readTag following number
  unfold readExtent
  rw [hread]
  dsimp only
  rw [hafter, Nat.add_sub_cancel_left]
  cases hinline with
  | selfClosing hclosing hblank => rw [if_pos hclosing, isEmpty_trim, if_pos hblank]
  | closed hopen hinner =>
      rw [hopen, if_neg Bool.false_ne_true, filled_of_stripEnding hinner, Bool.not_false,
        if_pos rfl, hinner]

theorem Opening.readExtent_open (h : Opening first more tag text remainder) (number : Nat)
    (hopen : tag.selfClosing = false) (hblank : isBlankLine remainder = true)
    (following : List Line) :
    readExtent number first (more ++ following) =
      match closingIndex tag.name 0 none following with
      | none => .error ⟨number, .missingClosing tag.name⟩
      | some count => .ok ⟨tag, more.length, .inr count⟩ := by
  obtain ⟨after, hread, hafter⟩ := h.readTag following number
  unfold readExtent
  rw [hread]
  dsimp only
  rw [hafter, Nat.add_sub_cancel_left, hopen, if_neg Bool.false_ne_true, isEmpty_trim, hblank,
    Bool.not_true, if_neg Bool.false_ne_true]
  cases hcount : closingIndex tag.name 0 none following with
  | none => simp only [List.drop_left, hcount]
  | some count => simp only [List.drop_left, hcount]

end Opening

/-- Where an element ends: on the line of its tag, or at the line that the search finds. -/
inductive Ends (tag : Tag) (remainder : List Char) (line : Nat) (following : List Line) :
    Sum (List Node) Nat -> Prop where
  | inline {children : List Node} : Inline tag remainder line children ->
      Ends tag remainder line following (.inl children)
  | later {count : Nat} : tag.selfClosing = false -> isBlankLine remainder = true ->
      closingIndex tag.name 0 none following = some count ->
      Ends tag remainder line following (.inr count)

theorem exists_opening_of_readExtent {number tagLines : Nat} {first : Line} {rest : List Line}
    {tag : Tag} {content : Sum (List Node) Nat} (hkind : LineKind.of first = .element)
    (hlines : forall line, line ∈ first :: rest -> '\n' ∉ line)
    (h : readExtent number first rest = .ok ⟨tag, tagLines, content⟩) :
    exists more following text remainder, rest = more ++ following ∧ tagLines = more.length ∧
      Opening first more tag text remainder ∧
      Ends tag remainder (number + more.length) following content := by
  unfold readExtent at h
  split at h
  · cases h
  · rename_i found cursor hread
    obtain ⟨more, following, text, rfl, hline, hopening⟩ :=
      exists_opening_of_readTag hkind hlines hread
    dsimp only at h
    rw [isEmpty_trim, hline, Nat.add_sub_cancel_left, List.drop_left] at h
    split at h
    · rename_i hclosing
      split at h
      · rename_i hblank
        cases h
        exact ⟨more, following, text, _, rfl, rfl, hopening, .inline (.selfClosing hclosing hblank)⟩
      · cases h
    · rename_i hclosing
      have hopen := Bool.eq_false_iff.mpr hclosing
      split at h
      · split at h
        · cases h
        · rename_i inner hinner
          cases h
          exact ⟨more, following, text, _, rfl, rfl, hopening, .inline (.closed hopen hinner)⟩
      · rename_i hfilled
        rw [Bool.not_eq_true, Bool.not_eq_false'] at hfilled
        split at h
        · cases h
        · rename_i count hcount
          cases h
          exact ⟨more, following, text, _, rfl, rfl, hopening, .later hopen hfilled hcount⟩

end Parser
end LessonPress

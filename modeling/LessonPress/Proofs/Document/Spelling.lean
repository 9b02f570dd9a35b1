import LessonPress.Document.TagReader
import LessonPress.Proofs.Document.Printable
import LessonPress.Proofs.Text.Names

/-!
# How opening tags are spelled

## The texts that the reader takes for a tag

The attributes and the end of a tag stand behind blanks, and around an equals sign there may
be blanks too.  The reader takes exactly the texts that are spelled in this way, whatever
follows them, and stops right behind them.
-/

namespace LessonPress

open Text

inductive AttributeValue.Spelled : List Char -> AttributeValue -> Prop where
  | string {quote : Char} {inner : List Char} : quote = '"' ∨ quote = '\'' -> quote ∉ inner ->
      Spelled (quote :: (inner ++ [quote])) (.string (String.ofList inner))
  | expression {inner : List Char} :
      Cursor.readExpression 0 none (inner ++ ['\x7d']) = some (inner, []) ->
      Spelled ('\x7b' :: (inner ++ ['\x7d'])) (.expression (String.ofList (trim inner)))

inductive Attribute.Spelled : List Char -> Attribute -> Prop where
  | bare {name : List Char} : IsName name -> Spelled name ⟨String.ofList name, .bare⟩
  | valued {name before behind text : List Char} {value : AttributeValue} : IsName name ->
      isBlankLine before = true -> isBlankLine behind = true -> value.Spelled text ->
      Spelled (name ++ (before ++ '=' :: (behind ++ text))) ⟨String.ofList name, value⟩

namespace Tag

/-- What follows a name without a value is no part of the name. -/
def Apart (entry : Attribute) (rest : List Char) : Prop :=
  entry.value = .bare -> forall c, rest.head? = some c -> isNamePart c = false

/-- The attributes of a tag and its end, from behind its name on. -/
inductive Spelled : List Char -> List Attribute -> Bool -> Prop where
  | opening {gap : List Char} : isBlankLine gap = true -> Spelled (gap ++ ['>']) [] false
  | selfClosing {gap : List Char} : isBlankLine gap = true ->
      Spelled (gap ++ ['/', '>']) [] true
  | entry {gap text rest : List Char} {entry : Attribute} {entries : List Attribute}
      {selfClosing : Bool} : isBlankLine gap = true -> entry.Spelled text ->
      Apart entry rest -> Spelled rest entries selfClosing ->
      Spelled (gap ++ (text ++ rest)) (entry :: entries) selfClosing

end Tag

namespace Cursor

/-!
# Line feeds and blanks
-/

theorem lineFeeds_eq_zero {text : List Char} (h : '\n' ∉ text) : lineFeeds text = 0 :=
  List.count_eq_zero.mpr h

theorem lineFeeds_append (text more : List Char) :
    lineFeeds (text ++ more) = lineFeeds text + lineFeeds more :=
  List.count_append

theorem lineFeeds_cons {c : Char} (h : c ≠ '\n') (text : List Char) :
    lineFeeds (c :: text) = lineFeeds text :=
  List.count_cons_of_ne h

theorem skipBlanks_append {gap : List Char} (hgap : isBlankLine gap = true) {rest : List Char}
    (hrest : forall c, rest.head? = some c -> isBlank c = false) (line : Nat) :
    skipBlanks ⟨gap ++ rest, line⟩ = ⟨rest, line + lineFeeds gap⟩ := by
  obtain ⟨htake, hdrop⟩ := takeWhile_append (List.all_eq_true.mp hgap) rest hrest
  unfold skipBlanks
  dsimp only
  rw [htake, hdrop]

theorem exists_skipBlanks (cursor : Cursor) :
    exists gap, isBlankLine gap = true ∧ cursor.rest = gap ++ cursor.skipBlanks.rest ∧
      cursor.skipBlanks.line = cursor.line + lineFeeds gap ∧
      forall c, cursor.skipBlanks.rest.head? = some c -> isBlank c = false := by
  refine ⟨cursor.rest.takeWhile isBlank, List.all_takeWhile,
    List.takeWhile_append_dropWhile.symm, rfl, ?_⟩
  intro c hc
  have hstop := List.head?_dropWhile_not isBlank cursor.rest
  unfold skipBlanks at hc
  dsimp only at hc
  rw [hc] at hstop
  simpa using hstop

/-!
# Names
-/

theorem readName_append {name : List Char} (h : IsName name) {rest : List Char}
    (hrest : forall c, rest.head? = some c -> isNamePart c = false) :
    readName (name ++ rest) = some (name, rest) := by
  obtain ⟨first, following, rfl, hfirst, hfollowing⟩ := h
  obtain ⟨htake, hdrop⟩ := takeWhile_append hfollowing rest hrest
  unfold readName
  rw [List.cons_append]
  dsimp only
  rw [if_pos hfirst, htake, hdrop]

theorem isName_of_readName {text name rest : List Char} (h : readName text = some (name, rest)) :
    IsName name ∧ text = name ++ rest ∧
      forall c, rest.head? = some c -> isNamePart c = false := by
  unfold readName at h
  split at h
  · cases h
  · rename_i first following
    split at h
    · rename_i hfirst
      cases h
      refine ⟨⟨first, _, rfl, hfirst, fun c hc => List.all_eq_true.mp List.all_takeWhile c hc⟩,
        ?_, ?_⟩
      · rw [List.cons_append, List.takeWhile_append_dropWhile]
      · intro c hc
        have hstop := List.head?_dropWhile_not isNamePart following
        rw [hc] at hstop
        simpa using hstop
    · cases h

theorem not_isNamePart_of_isBlankLine {gap : List Char} (h : isBlankLine gap = true) {c : Char}
    (hc : gap.head? = some c) : isNamePart c = false :=
  (not_name_of_isBlank (List.all_eq_true.mp h c (List.mem_of_head? hc))).left

theorem not_mem_of_named {c : Char} (hc : isNamePart c = false) {name : List Char}
    (h : forall d, d ∈ name -> isNamePart d = true) : c ∉ name := by
  intro hmem
  have hpart := h c hmem
  rw [hc] at hpart
  cases hpart

theorem not_mem_of_isName {c : Char} (hc : isNamePart c = false ∧ isNameStart c = false)
    {name : List Char} (h : IsName name) : c ∉ name := by
  obtain ⟨first, rest, rfl, hfirst, hrest⟩ := h
  intro hmem
  cases List.mem_cons.mp hmem with
  | inl heq =>
      rw [← heq, hc.right] at hfirst
      cases hfirst
  | inr hmem => exact not_mem_of_named hc.left hrest hmem

theorem feed_not_mem_of_named {name : List Char} (h : forall c, c ∈ name -> isNamePart c = true) :
    '\n' ∉ name :=
  not_mem_of_named (not_name_of_isBlank (by decide)).left h

theorem feed_not_mem_of_isName {name : List Char} (h : IsName name) : '\n' ∉ name :=
  not_mem_of_isName (not_name_of_isBlank (by decide)) h

/-!
# Values
-/

theorem readExpression_none (depth : Nat) (c : Char) (rest : List Char) :
    readExpression depth none (c :: rest) =
      if c = '\x7b' then
        (readExpression (depth + 1) none rest).map fun (inner, after) => (c :: inner, after)
      else if c = '\x7d' then
        match depth with
        | 0 => some ([], rest)
        | depth + 1 =>
            (readExpression depth none rest).map fun (inner, after) => (c :: inner, after)
      else
        (readExpression depth (if c = '"' ∨ c = '\'' ∨ c = '`' then some c else none) rest).map
          fun (inner, after) => (c :: inner, after) :=
  readExpression.eq_def depth none (c :: rest)

/-- An expression ends at its closing brace, whatever follows. -/
theorem readExpression_local {depth : Nat} {quote : Option Char} {text inner after : List Char}
    (h : readExpression depth quote text = some (inner, after)) :
    text = inner ++ '\x7d' :: after ∧ forall more,
      readExpression depth quote (inner ++ '\x7d' :: more) = some (inner, more) := by
  induction text generalizing depth quote inner with
  | nil => cases quote <;> cases h
  | cons c rest ih =>
      -- all branches but one read on behind the character
      have hmap : forall {depth : Nat} {quote : Option Char},
          (readExpression depth quote rest).map (fun (inner, after) => (c :: inner, after)) =
              some (inner, after) ->
            exists body, inner = c :: body ∧ rest = body ++ '\x7d' :: after ∧ forall more,
              (readExpression depth quote (body ++ '\x7d' :: more)).map
                (fun (inner, after) => (c :: inner, after)) = some (inner, more) := by
        intro depth quote hread
        rw [Option.map_eq_some_iff] at hread
        obtain ⟨⟨body, tail⟩, hbody, heq⟩ := hread
        cases heq
        obtain ⟨hrest, hmore⟩ := ih hbody
        refine ⟨body, rfl, hrest, fun more => ?_⟩
        rw [hmore]
        rfl
      cases quote with
      | some quote =>
          rw [readExpression] at h
          obtain ⟨body, rfl, hrest, hmore⟩ := hmap h
          refine ⟨by rw [hrest, List.cons_append], fun more => ?_⟩
          rw [List.cons_append, readExpression]
          exact hmore more
      | none =>
          rw [readExpression_none] at h
          by_cases hopen : c = '\x7b'
          · rw [if_pos hopen] at h
            obtain ⟨body, rfl, hrest, hmore⟩ := hmap h
            refine ⟨by rw [hrest, List.cons_append], fun more => ?_⟩
            rw [List.cons_append, readExpression_none, if_pos hopen]
            exact hmore more
          · rw [if_neg hopen] at h
            by_cases hclose : c = '\x7d'
            · rw [if_pos hclose] at h
              cases depth with
              | zero =>
                  cases h
                  refine ⟨by rw [hclose, List.nil_append], fun more => ?_⟩
                  rw [List.nil_append, readExpression_none, if_neg (by decide), if_pos rfl]
              | succ depth =>
                  obtain ⟨body, rfl, hrest, hmore⟩ := hmap h
                  refine ⟨by rw [hrest, List.cons_append], fun more => ?_⟩
                  rw [List.cons_append, readExpression_none, if_neg hopen, if_pos hclose]
                  exact hmore more
            · rw [if_neg hclose] at h
              obtain ⟨body, rfl, hrest, hmore⟩ := hmap h
              refine ⟨by rw [hrest, List.cons_append], fun more => ?_⟩
              rw [List.cons_append, readExpression_none, if_neg hopen, if_neg hclose]
              exact hmore more

theorem spelled_of_readValue {name : String} {cursor next : Cursor} {value : AttributeValue}
    (h : readValue name cursor = .ok (value, next)) :
    exists text, value.Spelled text ∧ cursor.rest = text ++ next.rest ∧
      next.line = cursor.line + lineFeeds text := by
  unfold readValue at h
  split at h
  · cases h
  · rename_i c rest hrest
    split at h
    · rename_i hquote
      split at h
      · cases h
      · rename_i inner after hcut
        cases h
        obtain ⟨hmem, htext⟩ := eq_append_of_cutAt hcut
        have hc : c ≠ '\n' := by
          rcases hquote with rfl | rfl <;> decide
        refine ⟨_, .string hquote hmem, ?_, ?_⟩
        · rw [hrest, htext]
          simp
        · rw [lineFeeds_cons hc, lineFeeds_append, lineFeeds_cons hc]
          rfl
    · split at h
      · rename_i hbrace
        split at h
        · cases h
        · rename_i inner after hread
          cases h
          obtain ⟨htext, hmore⟩ := readExpression_local hread
          refine ⟨_, .expression (hmore []), ?_, ?_⟩
          · rw [hrest, hbrace, htext]
            simp
          · rw [lineFeeds_cons (by decide), lineFeeds_append, lineFeeds_cons (by decide)]
            rfl
      · cases h

theorem readValue_append (name : String) {value : AttributeValue} {text : List Char}
    (h : value.Spelled text) (rest : List Char) (line : Nat) :
    readValue name ⟨text ++ rest, line⟩ = .ok (value, ⟨rest, line + lineFeeds text⟩) := by
  cases h with
  | @string quote inner hquote hmem =>
      have hfeed : quote ≠ '\n' := by
        rcases hquote with rfl | rfl <;> decide
      rw [lineFeeds_cons hfeed, lineFeeds_append, lineFeeds_cons hfeed, List.cons_append,
        List.append_assoc, List.singleton_append]
      unfold readValue
      dsimp only
      rw [if_pos hquote, cutAt_append hmem]
      rfl
  | @expression inner hread =>
      obtain ⟨_, hmore⟩ := readExpression_local hread
      rw [lineFeeds_cons (by decide), lineFeeds_append, lineFeeds_cons (by decide),
        List.cons_append, List.append_assoc, List.singleton_append]
      unfold readValue
      dsimp only
      rw [if_neg (by decide), if_pos rfl, hmore]
      rfl

theorem exists_start_of_spelledValue {value : AttributeValue} {text : List Char}
    (h : value.Spelled text) : exists c rest, text = c :: rest ∧ isBlank c = false := by
  cases h with
  | @string quote inner hquote _ =>
      refine ⟨quote, inner ++ [quote], rfl, ?_⟩
      rcases hquote with rfl | rfl <;> decide
  | @expression inner _ => exact ⟨'\x7b', inner ++ ['\x7d'], rfl, by decide⟩

/-!
# Attributes
-/

theorem exists_name_of_spelled {entry : Attribute} {text : List Char} (h : entry.Spelled text) :
    exists name following, text = name ++ following ∧ IsName name := by
  cases h with
  | bare hname => exact ⟨text, [], (List.append_nil text).symm, hname⟩
  | @valued name before behind value _ hname _ _ _ => exact ⟨name, _, rfl, hname⟩

theorem exists_start_of_spelled {entry : Attribute} {text : List Char}
    (h : entry.Spelled text) :
    exists c rest, text = c :: rest ∧ isNameStart c = true := by
  obtain ⟨name, following, rfl, first, rest, rfl, hfirst, _⟩ := exists_name_of_spelled h
  exact ⟨first, rest ++ following, rfl, hfirst⟩

/-- Behind an attribute without a value the reader has passed the blanks already. -/
theorem spelled_of_readAttribute {element : String} {cursor next : Cursor} {entry : Attribute}
    (h : readAttribute element cursor = .ok (entry, next)) :
    exists text gap, entry.Spelled text ∧ isBlankLine gap = true ∧
      cursor.rest = text ++ (gap ++ next.rest) ∧
      next.line = cursor.line + lineFeeds text + lineFeeds gap ∧
      Tag.Apart entry (gap ++ next.rest) := by
  unfold readAttribute at h
  split at h
  · cases h
  · rename_i name rest hname
    obtain ⟨hisName, htext, hend⟩ := isName_of_readName hname
    obtain ⟨before, hbefore, hrest, hline, _⟩ := exists_skipBlanks ⟨rest, cursor.line⟩
    dsimp only at h hrest hline
    split at h
    · rename_i tail htail
      obtain ⟨behind, hbehind, hmore, hfeeds, _⟩ :=
        exists_skipBlanks ⟨tail, (skipBlanks ⟨rest, cursor.line⟩).line⟩
      dsimp only at hmore hfeeds
      split at h
      · cases h
      · rename_i value after hvalue
        cases h
        obtain ⟨text, hspelled, hfollowing, hafter⟩ := spelled_of_readValue hvalue
        refine ⟨_, [], .valued hisName hbefore hbehind hspelled, rfl, ?_, ?_, ?_⟩
        · rw [htext, hrest, htail, hmore, hfollowing]
          simp
        · rw [hafter, hfeeds, hline, lineFeeds_append, lineFeeds_append,
            lineFeeds_cons (by decide), lineFeeds_append,
            lineFeeds_eq_zero (feed_not_mem_of_isName hisName)]
          simp only [lineFeeds, List.count_nil]
          omega
        · intro hbare
          cases hspelled <;> cases hbare
    · cases h
      refine ⟨name, before, .bare hisName, hbefore, ?_, ?_, ?_⟩
      · rw [htext, ← hrest]
      · rw [hline, lineFeeds_eq_zero (feed_not_mem_of_isName hisName), Nat.add_zero]
      · intro _
        rw [← hrest]
        exact hend

theorem skipBlanks_skipBlanks (cursor : Cursor) :
    cursor.skipBlanks.skipBlanks = cursor.skipBlanks := by
  obtain ⟨_, _, _, _, hhead⟩ := exists_skipBlanks cursor
  have hnone : isBlankLine [] = true := rfl
  exact skipBlanks_append hnone hhead cursor.skipBlanks.line

theorem readAttribute_append (element : String) {entry : Attribute} {text rest : List Char}
    (h : entry.Spelled text) (hapart : Tag.Apart entry rest)
    (hequals : (trimStart rest).head? ≠ some '=') (line : Nat) :
    exists next, readAttribute element ⟨text ++ rest, line⟩ = .ok (entry, next) ∧
      next.skipBlanks = skipBlanks ⟨rest, line + lineFeeds text⟩ := by
  cases h with
  | bare hname =>
      have hfeeds := lineFeeds_eq_zero (feed_not_mem_of_isName hname)
      refine ⟨skipBlanks ⟨rest, line⟩, ?_, by rw [skipBlanks_skipBlanks, hfeeds, Nat.add_zero]⟩
      unfold readAttribute
      rw [readName_append hname (hapart rfl)]
      dsimp only
      split
      · rename_i tail htail
        have hhead : (trimStart rest).head? = some '=' := congrArg List.head? htail
        exact absurd hhead hequals
      · rfl
  | @valued name before behind text value hname hbefore hbehind hvalue =>
      have hend : forall c, (before ++ '=' :: (behind ++ (text ++ rest))).head? = some c ->
          isNamePart c = false := by
        intro c hc
        cases before with
        | nil =>
            cases hc
            exact (not_name_of_mark '=' (by decide)).left
        | cons blank others =>
            cases hc
            exact not_isNamePart_of_isBlankLine hbefore rfl
      have hsign : forall c, ('=' :: (behind ++ (text ++ rest))).head? = some c ->
          isBlank c = false := by
        rintro c ⟨⟩
        decide
      have hstart : forall c, (text ++ rest).head? = some c -> isBlank c = false := by
        intro c hc
        obtain ⟨first, tail, rfl, hfirst⟩ := exists_start_of_spelledValue hvalue
        cases hc
        exact hfirst
      refine ⟨⟨rest, line + lineFeeds before + lineFeeds behind + lineFeeds text⟩, ?_, ?_⟩
      · unfold readAttribute
        simp only [List.append_assoc, List.cons_append]
        rw [readName_append hname hend]
        dsimp only
        rw [skipBlanks_append hbefore hsign]
        split
        · rename_i tail htail
          cases htail
          rw [skipBlanks_append hbehind hstart, readValue_append _ hvalue]
        · rename_i hnone
          exact absurd rfl (hnone _)
      · rw [lineFeeds_append, lineFeeds_append, lineFeeds_cons (by decide), lineFeeds_append,
          lineFeeds_eq_zero (feed_not_mem_of_isName hname), Nat.zero_add]
        simp only [Nat.add_assoc]

/-!
# Whole tags
-/

theorem exists_start_of_spelledTag {text : List Char} {entries : List Attribute}
    {selfClosing : Bool} (h : Tag.Spelled text entries selfClosing) :
    exists gap c rest, text = gap ++ c :: rest ∧ isBlankLine gap = true ∧
      (c = '>' ∨ c = '/' ∨ isNameStart c = true) := by
  cases h with
  | @opening gap hgap => exact ⟨gap, '>', [], rfl, hgap, Or.inl rfl⟩
  | @selfClosing gap hgap => exact ⟨gap, '/', ['>'], rfl, hgap, Or.inr (Or.inl rfl)⟩
  | @entry gap text rest _ _ _ hgap hentry _ _ =>
      obtain ⟨c, tail, rfl, hc⟩ := exists_start_of_spelled hentry
      exact ⟨gap, c, tail ++ rest, rfl, hgap, Or.inr (Or.inr hc)⟩

theorem not_blank_of_start {c : Char} (h : c = '>' ∨ c = '/' ∨ isNameStart c = true) :
    isBlank c = false := by
  rcases h with rfl | rfl | hname
  · decide
  · decide
  · exact not_blank_of_isNameStart hname

theorem apart_append_iff {entry : Attribute} {rest : List Char} {entries : List Attribute}
    {selfClosing : Bool} (hrest : Tag.Spelled rest entries selfClosing) (more : List Char) :
    Tag.Apart entry (rest ++ more) <-> Tag.Apart entry rest := by
  obtain ⟨gap, c, tail, rfl, _, _⟩ := exists_start_of_spelledTag hrest
  unfold Tag.Apart
  cases gap <;> rfl

theorem head?_trimStart_of_spelledTag {text : List Char} {entries : List Attribute}
    {selfClosing : Bool} (h : Tag.Spelled text entries selfClosing) (more : List Char) :
    (trimStart (text ++ more)).head? ≠ some '=' := by
  obtain ⟨gap, c, rest, rfl, hgap, hc⟩ := exists_start_of_spelledTag h
  have hblank : isBlank c = false := not_blank_of_start hc
  have hstart : forall d, (c :: (rest ++ more)).head? = some d -> isBlank d = false := by
    rintro d ⟨⟩
    exact hblank
  unfold trimStart
  rw [List.append_assoc, List.cons_append,
    (takeWhile_append (List.all_eq_true.mp hgap) _ hstart).right]
  rintro ⟨⟩
  rcases hc with heq | heq | hname
  · cases heq
  · cases heq
  · rw [(not_name_of_mark '=' (by decide)).right] at hname
    cases hname

theorem readAttributes_cons (element : String) (firstLine : Nat) {cursor : Cursor} {c : Char}
    {tail : List Char} (hrest : cursor.skipBlanks.rest = c :: tail) (hslash : c ≠ '/')
    (hclose : c ≠ '>') :
    readAttributes element firstLine cursor =
      match readAttribute element cursor.skipBlanks with
      | .error cause => .error cause
      | .ok (entry, next) =>
          match readAttributes element firstLine next with
          | .error cause => .error cause
          | .ok (entries, selfClosing, after) => .ok (entry :: entries, selfClosing, after) := by
  rw [readAttributes]
  split
  · rename_i heq
    rw [hrest] at heq
    cases heq
  · rename_i heq
    rw [hrest] at heq
    exact absurd (List.cons.inj heq).left hslash
  · rename_i heq
    rw [hrest] at heq
    exact absurd (List.cons.inj heq).left hslash
  · rename_i heq
    rw [hrest] at heq
    exact absurd (List.cons.inj heq).left hclose
  · split
    · rename_i heq
      simp only [heq]
    · rename_i entry next heq
      cases hread : readAttributes element firstLine next with
      | error cause => simp only [heq, hread]
      | ok found => simp only [heq, hread]

theorem readAttributes_append (element : String) (firstLine : Nat) {text : List Char}
    {entries : List Attribute} {selfClosing : Bool} (h : Tag.Spelled text entries selfClosing)
    (more : List Char) {line : Nat} {cursor : Cursor}
    (hcursor : cursor.skipBlanks = skipBlanks ⟨text ++ more, line⟩) :
    readAttributes element firstLine cursor =
      .ok (entries, selfClosing, ⟨more, line + lineFeeds text⟩) := by
  induction h generalizing cursor line with
  | @opening gap hgap =>
      have hmark : forall c, ('>' :: more).head? = some c -> isBlank c = false := by
        rintro c ⟨⟩
        decide
      rw [List.append_assoc, List.singleton_append, skipBlanks_append hgap hmark] at hcursor
      rw [readAttributes, lineFeeds_append]
      simp [hcursor, lineFeeds]
  | @selfClosing gap hgap =>
      have hmark : forall c, ('/' :: '>' :: more).head? = some c -> isBlank c = false := by
        rintro c ⟨⟩
        decide
      rw [List.append_assoc, List.cons_append, List.singleton_append,
        skipBlanks_append hgap hmark] at hcursor
      rw [readAttributes, lineFeeds_append]
      simp [hcursor, lineFeeds]
  | @entry gap text rest entry entries selfClosing hgap hentry hapart hrest ih =>
      obtain ⟨c, tail, htext, hc⟩ := exists_start_of_spelled hentry
      have hstart : forall d, (text ++ (rest ++ more)).head? = some d -> isBlank d = false := by
        intro d hd
        rw [htext] at hd
        cases hd
        exact not_blank_of_isNameStart hc
      have hmark : c ≠ '/' ∧ c ≠ '>' := by
        constructor
        · rintro rfl
          rw [(not_name_of_mark '/' (by decide)).right] at hc
          cases hc
        · rintro rfl
          rw [(not_name_of_mark '>' (by decide)).right] at hc
          cases hc
      obtain ⟨next, hread, hnext⟩ := readAttribute_append element hentry
        ((apart_append_iff hrest more).mpr hapart) (head?_trimStart_of_spelledTag hrest more)
        (line + lineFeeds gap)
      rw [List.append_assoc, List.append_assoc, skipBlanks_append hgap hstart] at hcursor
      have hfirst : cursor.skipBlanks.rest = c :: (tail ++ (rest ++ more)) := by
        rw [hcursor, htext, List.cons_append]
      rw [readAttributes_cons element firstLine hfirst hmark.left hmark.right, hcursor, hread]
      dsimp only
      rw [ih hnext, lineFeeds_append, lineFeeds_append]
      simp only [Nat.add_assoc]

theorem spelledTag_append {text : List Char} {entries : List Attribute} {selfClosing : Bool}
    (h : Tag.Spelled text entries selfClosing) {gap : List Char} (hgap : isBlankLine gap = true) :
    Tag.Spelled (gap ++ text) entries selfClosing := by
  have hboth : forall {other : List Char}, isBlankLine other = true ->
      isBlankLine (gap ++ other) = true := by
    intro other hother
    unfold isBlankLine at hgap hother ⊢
    rw [List.all_append, hgap, hother, Bool.and_self]
  cases h with
  | opening hown =>
      rw [← List.append_assoc]
      exact .opening (hboth hown)
  | selfClosing hown =>
      rw [← List.append_assoc]
      exact .selfClosing (hboth hown)
  | entry hown hentry hapart hrest =>
      rw [← List.append_assoc]
      exact .entry (hboth hown) hentry hapart hrest

theorem spelled_of_readAttributes {element : String} {firstLine : Nat} {cursor after : Cursor}
    {entries : List Attribute} {selfClosing : Bool}
    (h : readAttributes element firstLine cursor = .ok (entries, selfClosing, after)) :
    exists text, Tag.Spelled text entries selfClosing ∧ cursor.rest = text ++ after.rest ∧
      after.line = cursor.line + lineFeeds text := by
  fun_induction readAttributes element firstLine cursor generalizing entries selfClosing with
  | case2 cursor rest hmarks =>
      cases h
      obtain ⟨gap, hgap, hrest, hline, _⟩ := exists_skipBlanks cursor
      refine ⟨gap ++ ['/', '>'], .selfClosing hgap, ?_, ?_⟩
      · rw [hrest, hmarks, List.append_assoc]
        rfl
      · rw [hline, lineFeeds_append]
        rfl
  | case4 cursor rest hmark =>
      cases h
      obtain ⟨gap, hgap, hrest, hline, _⟩ := exists_skipBlanks cursor
      refine ⟨gap ++ ['>'], .opening hgap, ?_, ?_⟩
      · rw [hrest, hmark, List.append_assoc]
        rfl
      · rw [hline, lineFeeds_append]
        rfl
  | case7 cursor _ _ _ _ _ _ entry next hentry entries selfClosing after hread ih =>
      cases h
      obtain ⟨gap, hgap, hrest, hline, _⟩ := exists_skipBlanks cursor
      obtain ⟨text, between, hspelled, hbetween, htext, hnext, hapart⟩ :=
        spelled_of_readAttribute hentry
      obtain ⟨following, hfollowing, hafter, hend⟩ := ih hread
      have htail := spelledTag_append hfollowing hbetween
      rw [hafter, ← List.append_assoc] at hapart htext
      refine ⟨gap ++ (text ++ (between ++ following)), .entry hgap hspelled
        ((apart_append_iff htail _).mp hapart) htail, ?_, ?_⟩
      · rw [hrest, htext]
        simp only [List.append_assoc]
      · rw [hend, hnext, hline]
        simp only [lineFeeds_append, Nat.add_assoc]
  | _ => cases h

/-!
# Names and tags
-/

theorem readTag_append {name text : List Char} {entries : List Attribute} {selfClosing : Bool}
    (hname : forall c, c ∈ name -> isNamePart c = true)
    (htext : Tag.Spelled text entries selfClosing)
    (hapart : forall c, text.head? = some c -> isNamePart c = false) (more : List Char)
    (line : Nat) :
    readTag ⟨name ++ (text ++ more), line⟩ =
      .ok (⟨String.ofList name, entries, selfClosing⟩, ⟨more, line + lineFeeds text⟩) := by
  have hend : forall c, (text ++ more).head? = some c -> isNamePart c = false := by
    obtain ⟨gap, first, tail, rfl, _, _⟩ := exists_start_of_spelledTag htext
    cases gap <;> exact hapart
  obtain ⟨htake, hdrop⟩ := takeWhile_append hname (text ++ more) hend
  unfold readTag
  dsimp only
  rw [htake, hdrop, readAttributes_append _ _ htext more rfl]

theorem spelled_of_readTag {cursor after : Cursor} {tag : Tag}
    (h : readTag cursor = .ok (tag, after)) :
    exists text, (forall c, c ∈ tag.name.toList -> isNamePart c = true) ∧
      Tag.Spelled text tag.attributes tag.selfClosing ∧
      (forall c, text.head? = some c -> isNamePart c = false) ∧
      cursor.rest = tag.name.toList ++ (text ++ after.rest) ∧
      after.line = cursor.line + lineFeeds text := by
  unfold readTag at h
  dsimp only at h
  split at h
  · cases h
  · rename_i entries selfClosing after hread
    cases h
    obtain ⟨text, hspelled, hrest, hline⟩ := spelled_of_readAttributes hread
    dsimp only at hrest hline ⊢
    rw [String.toList_ofList]
    refine ⟨text, fun c hc => List.all_eq_true.mp List.all_takeWhile c hc, hspelled, ?_, ?_, hline⟩
    · intro c hc
      have hstop := List.head?_dropWhile_not isNamePart cursor.rest
      obtain ⟨gap, first, tail, htext, _, _⟩ := exists_start_of_spelledTag hspelled
      rw [hrest, htext] at hstop
      rw [htext] at hc
      cases gap <;> cases hc <;> simpa using hstop
    · rw [← hrest, List.takeWhile_append_dropWhile]

end Cursor
end LessonPress

import LessonPress.Excerpt.Dedent
import LessonPress.Proofs.Text.Lines
import Mathlib.Data.List.Forall2
import Mathlib.Data.List.TakeWhile

/-!
# Indentation that is taken off

## What is left of the lines, and where they are cut

The longest run of spaces and tabs that all lines start with is taken off, blank lines aside,
so no further one is left.  Counted in bytes, every cut is between two characters: spaces and
tabs take a byte each.
-/

namespace LessonPress
namespace Excerpt

open Text

/-!
# Common beginnings
-/

theorem prefix_commonPrefix_iff {front left right : List Char} :
    front <+: commonPrefix left right <-> front <+: left ∧ front <+: right := by
  induction left generalizing front right with
  | nil => cases front <;> simp [commonPrefix]
  | cons a left ih =>
      cases right with
      | nil => cases front <;> simp [commonPrefix]
      | cons b right =>
          cases front with
          | nil => simp
          | cons c front =>
              unfold commonPrefix
              split
              · rename_i hab
                subst hab
                rw [List.cons_prefix_cons, List.cons_prefix_cons, List.cons_prefix_cons, ih]
                exact and_and_left
              · rename_i hab
                simp only [List.cons_prefix_cons, List.prefix_nil, reduceCtorEq, false_iff]
                rintro ⟨⟨rfl, _⟩, ⟨rfl, _⟩⟩
                exact hab rfl

theorem prefix_foldl_iff {front first : List Char} {texts : List (List Char)} :
    front <+: texts.foldl commonPrefix first <->
      front <+: first ∧ forall text, text ∈ texts -> front <+: text := by
  induction texts generalizing first with
  | nil => simp
  | cons text rest ih =>
      rw [List.foldl_cons, ih, prefix_commonPrefix_iff, List.forall_mem_cons, and_assoc]

theorem prefix_commonPrefixOf_iff {front : List Char} {texts : List (List Char)}
    (h : texts ≠ []) :
    front <+: commonPrefixOf texts <-> forall text, text ∈ texts -> front <+: text := by
  cases texts with
  | nil => exact absurd rfl h
  | cons first rest =>
      rw [commonPrefixOf, prefix_foldl_iff, List.forall_mem_cons]

/-!
# Indentation
-/

def IsMargin (text : List Char) : Prop :=
  forall c, c ∈ text -> isIndent c = true

theorem isBlank_of_isIndent {c : Char} (h : isIndent c = true) : isBlank c = true := by
  unfold isIndent at h
  rcases Bool.or_eq_true_iff.mp h with hspace | htab
  · rw [beq_iff_eq.mp hspace]
    decide
  · rw [beq_iff_eq.mp htab]
    decide

theorem isMargin_indentOf (line : Line) : IsMargin (indentOf line) :=
  fun _ hc => List.mem_takeWhile_imp hc

theorem IsMargin.of_front {front text : List Char} (h : IsMargin text) (hfront : front <+: text) :
    IsMargin front :=
  fun c hc => h c (hfront.subset hc)

theorem IsMargin.append {front text : List Char} (h : IsMargin front) (htext : IsMargin text) :
    IsMargin (front ++ text) := by
  intro c hc
  exact (List.mem_append.mp hc).elim (h c) (htext c)

theorem indentOf_append {front : List Char} (h : IsMargin front) (line : Line) :
    indentOf (front ++ line) = front ++ indentOf line :=
  List.takeWhile_append_of_pos h

theorem IsMargin.prefix_indentOf_iff {front : List Char} (h : IsMargin front) {line : Line} :
    front <+: indentOf line <-> front <+: line := by
  constructor
  · exact fun hfront => hfront.trans (List.takeWhile_prefix isIndent)
  · rintro ⟨rest, rfl⟩
    rw [indentOf_append h]
    exact List.prefix_append front _

theorem IsMargin.isBlankLine_append {front : List Char} (h : IsMargin front) (line : Line) :
    isBlankLine (front ++ line) = isBlankLine line := by
  have hfront : front.all isBlank = true :=
    List.all_eq_true.mpr fun c hc => isBlank_of_isIndent (h c hc)
  unfold isBlankLine
  rw [List.all_append, hfront, Bool.true_and]

section Blocks

variable {block : List Line}

theorem prefix_sharedIndent_iff {front : List Char} (hfront : IsMargin front)
    (h : exists line, line ∈ block ∧ isBlankLine line = false) :
    front <+: sharedIndent block <->
      forall line, line ∈ block -> isBlankLine line = false -> front <+: line := by
  have hfilled : (block.filter fun line => !isBlankLine line).map indentOf ≠ [] := by
    obtain ⟨line, hline, hblank⟩ := h
    refine List.ne_nil_of_mem (List.mem_map_of_mem (List.mem_filter.mpr ⟨hline, ?_⟩))
    rw [hblank]
    rfl
  unfold sharedIndent
  rw [prefix_commonPrefixOf_iff hfilled, List.forall_mem_map]
  simp [hfront.prefix_indentOf_iff]

theorem isMargin_sharedIndent (block : List Line) : IsMargin (sharedIndent block) := by
  unfold sharedIndent
  cases hfilled : block.filter fun line => !isBlankLine line with
  | nil => exact nofun
  | cons first rest =>
      refine (isMargin_indentOf first).of_front ?_
      rw [List.map_cons]
      exact (prefix_commonPrefixOf_iff (List.cons_ne_nil _ _)).mp List.prefix_rfl _
        List.mem_cons_self

theorem sharedIndent_opens {line : Line} (hline : line ∈ block)
    (hblank : isBlankLine line = false) : sharedIndent block <+: line :=
  (prefix_sharedIndent_iff (isMargin_sharedIndent block) ⟨line, hline, hblank⟩).mp
    List.prefix_rfl line hline hblank

end Blocks

/-!
# What is left of the lines
-/

structure Leaves (indent : List Char) (line piece : Line) : Prop where
  blank : isBlankLine line = true -> piece = []
  filled : isBlankLine line = false -> line = indent ++ piece
  further : isBlankLine line = false -> indentOf line = indent ++ indentOf piece

/-- The lines have lost an indentation, and there is no further one that they share. -/
structure Stripped (block : List Line) (indent : List Char) (pieces : List Line) : Prop where
  margin : IsMargin indent
  leaves : List.Forall₂ (Leaves indent) block pieces
  longest : (exists line, line ∈ block ∧ isBlankLine line = false) -> forall front,
    IsMargin front -> (forall piece, piece ∈ pieces -> isBlankLine piece = false ->
      front <+: piece) -> front = []

theorem leaves_unindent {indent : List Char} (h : IsMargin indent) {line : Line}
    (hline : isBlankLine line = false -> indent <+: line) :
    Leaves indent line (unindent indent line) := by
  cases hblank : isBlankLine line with
  | true =>
      unfold unindent
      rw [if_pos hblank]
      constructor
      · exact fun _ => rfl
      · rw [hblank]
        exact nofun
      · rw [hblank]
        exact nofun
  | false =>
      obtain ⟨piece, rfl⟩ := hline hblank
      unfold unindent
      rw [hblank, if_neg Bool.false_ne_true, List.drop_left]
      constructor
      · rw [hblank]
        exact nofun
      · exact fun _ => rfl
      · exact fun _ => indentOf_append h piece

theorem Leaves.isBlankLine_eq {indent : List Char} (h : IsMargin indent) {line piece : Line}
    (hleaves : Leaves indent line piece) : isBlankLine piece = isBlankLine line := by
  cases hblank : isBlankLine line with
  | true =>
      rw [hleaves.blank hblank]
      rfl
  | false =>
      have hline := hleaves.filled hblank
      rw [hline, h.isBlankLine_append] at hblank
      exact hblank

theorem leaves_of_mem {block : List Line} {line : Line} (h : line ∈ block) :
    Leaves (sharedIndent block) line (unindent (sharedIndent block) line) :=
  leaves_unindent (isMargin_sharedIndent block) (sharedIndent_opens h)

theorem stripped_dedentLines (block : List Line) :
    Stripped block (sharedIndent block) (dedentLines block) := by
  have hmargin := isMargin_sharedIndent block
  constructor
  case margin => exact hmargin
  case leaves =>
    unfold dedentLines
    rw [List.forall₂_map_right_iff, List.forall₂_same]
    exact fun line hline => leaves_of_mem hline
  case longest =>
    intro hfilled front hfront hall
    -- With such a text behind it, the shared indentation would be longer than it is.
    have hlonger : sharedIndent block ++ front <+: sharedIndent block := by
      rw [prefix_sharedIndent_iff (hmargin.append hfront) hfilled]
      intro line hline hblank
      have hleaves := leaves_of_mem hline
      have hpiece := hall _ (List.mem_map_of_mem hline)
        ((hleaves.isBlankLine_eq hmargin).trans hblank)
      have hboth := (List.prefix_append_right_inj (sharedIndent block)).mpr hpiece
      rw [← hleaves.filled hblank] at hboth
      exact hboth
    have hlength := hlonger.length_le
    rw [List.length_append] at hlength
    exact List.eq_nil_of_length_eq_zero (by omega)

theorem sharedIndent_dedentLines (block : List Line) : sharedIndent (dedentLines block) = [] := by
  by_cases hfilled : exists line, line ∈ dedentLines block ∧ isBlankLine line = false
  · obtain ⟨piece, hpiece, hblank⟩ := hfilled
    obtain ⟨line, hline, rfl⟩ := List.mem_map.mp hpiece
    have hsame := (leaves_of_mem hline).isBlankLine_eq (isMargin_sharedIndent block)
    refine (stripped_dedentLines block).longest ⟨line, hline, hsame.symm.trans hblank⟩ _
      (isMargin_sharedIndent _) ?_
    exact fun other hother => sharedIndent_opens hother
  · have hnone : (dedentLines block).filter (fun line => !isBlankLine line) = [] := by
      rw [List.filter_eq_nil_iff]
      intro line hline hnot
      exact hfilled ⟨line, hline, by simpa using hnot⟩
    unfold sharedIndent
    rw [hnone]
    rfl

theorem dedentLines_dedentLines (block : List Line) :
    dedentLines (dedentLines block) = dedentLines block := by
  rw [dedentLines, sharedIndent_dedentLines]
  refine (List.map_congr_left fun piece hpiece => ?_).trans (List.map_id _)
  obtain ⟨line, hline, rfl⟩ := List.mem_map.mp hpiece
  have hleaves := leaves_of_mem hline
  have hsame := hleaves.isBlankLine_eq (isMargin_sharedIndent block)
  generalize unindent (sharedIndent block) line = piece at hleaves hsame
  cases hblank : isBlankLine piece with
  | true =>
      rw [hleaves.blank (hsame.symm.trans hblank)]
      rfl
  | false =>
      unfold unindent
      rw [hblank]
      rfl

/-!
# Cutting at bytes

The same lines are stripped with all lengths counted in bytes of UTF-8.  A cut that does not
come between two characters gives nothing, and neither does one behind the end.
-/

def cutBytes : Nat -> List Char -> Option (List Char × List Char)
  | 0, text => some ([], text)
  | _ + 1, [] => none
  | count + 1, c :: rest =>
      if count + 1 < c.utf8Size then
        none
      else
        (cutBytes (count + 1 - c.utf8Size) rest).map fun (front, back) => (c :: front, back)

def bytesOf (text : List Char) : List UInt8 :=
  text.flatMap String.utf8EncodeChar

def sharedBytes (left right : List Char) : Nat :=
  (((bytesOf left).zip (bytesOf right)).takeWhile fun pair => pair.1 == pair.2).length

def byteIndentOf (line : Line) : Option (List Char) :=
  (cutBytes (byteLength line - byteLength (line.dropWhile isIndent)) line).map Prod.fst

def byteShared (known : Option (List Char)) (line : Line) : Option (Option (List Char)) := do
  let indent ← byteIndentOf line
  match known with
  | none => some (some indent)
  | some current =>
      let cut ← cutBytes (sharedBytes current indent) current
      some (some cut.1)

def byteUnindent (indent : List Char) (line : Line) : Option Line :=
  if isBlankLine line then some []
  else (cutBytes (byteLength indent) line).map Prod.snd

/-- The lines without their shared indentation, or nothing if a cut fails. -/
def byteDedent (block : List Line) : Option (List Char) := do
  let shared ← (block.filter fun line => !isBlankLine line).foldlM byteShared none
  let pieces ← block.mapM (byteUnindent (shared.getD []))
  some (joinLines pieces)

theorem byteLength_append (front back : List Char) :
    byteLength (front ++ back) = byteLength front + byteLength back := by
  induction front with
  | nil => exact (Nat.zero_add _).symm
  | cons c rest ih =>
      rw [List.cons_append, byteLength, byteLength, ih, Nat.add_assoc]

theorem cutBytes_append (front back : List Char) :
    cutBytes (byteLength front) (front ++ back) = some (front, back) := by
  induction front with
  | nil =>
      rw [byteLength, List.nil_append]
      cases back <;> rfl
  | cons c rest ih =>
      have hpos := c.utf8Size_pos
      obtain ⟨count, hcount⟩ : exists count, byteLength (c :: rest) = count + 1 :=
        Nat.exists_eq_succ_of_ne_zero (by rw [byteLength]; omega)
      have hrest : count + 1 - c.utf8Size = byteLength rest := by
        rw [← hcount, byteLength]
        omega
      have hfits : ¬ count + 1 < c.utf8Size := by
        rw [← hcount, byteLength]
        omega
      rw [hcount, List.cons_append, cutBytes, if_neg hfits, hrest, ih]
      rfl

theorem byteIndentOf_eq (line : Line) : byteIndentOf line = some (indentOf line) := by
  have hline : indentOf line ++ line.dropWhile isIndent = line := List.takeWhile_append_dropWhile
  have hlength := byteLength_append (indentOf line) (line.dropWhile isIndent)
  rw [hline] at hlength
  have hcut := cutBytes_append (indentOf line) (line.dropWhile isIndent)
  rw [hline] at hcut
  unfold byteIndentOf
  rw [hlength, Nat.add_sub_cancel, hcut]
  rfl

theorem bytesOf_cons {c : Char} (h : isIndent c = true) (rest : List Char) :
    c.utf8Size = 1 ∧ bytesOf (c :: rest) = UInt8.ofNat c.toNat :: bytesOf rest := by
  unfold isIndent at h
  rcases Bool.or_eq_true_iff.mp h with hspace | htab
  · rw [beq_iff_eq.mp hspace]
    exact ⟨by decide, rfl⟩
  · rw [beq_iff_eq.mp htab]
    exact ⟨by decide, rfl⟩

theorem byte_eq_iff {a b : Char} (ha : isIndent a = true) (hb : isIndent b = true) :
    UInt8.ofNat a.toNat = UInt8.ofNat b.toNat <-> a = b := by
  have hcases : forall c, isIndent c = true -> c = ' ' ∨ c = '\t' := by
    intro c hc
    simpa [isIndent] using hc
  rcases hcases a ha with rfl | rfl <;> rcases hcases b hb with rfl | rfl <;> decide

/-- Two runs of spaces and tabs agree in as many bytes as their common beginning has. -/
theorem sharedBytes_eq {left right : List Char} (hleft : IsMargin left) (hright : IsMargin right) :
    sharedBytes left right = byteLength (commonPrefix left right) := by
  induction left generalizing right with
  | nil => rfl
  | cons a left ih =>
      obtain ⟨ha, hrest⟩ := List.forall_mem_cons.mp hleft
      obtain ⟨hsize, hbytes⟩ := bytesOf_cons ha left
      cases right with
      | nil =>
          unfold sharedBytes
          rw [hbytes]
          rfl
      | cons b right =>
          obtain ⟨hb, hothers⟩ := List.forall_mem_cons.mp hright
          have hshared := ih hrest hothers
          unfold sharedBytes at hshared ⊢
          rw [hbytes, (bytesOf_cons hb right).right, List.zip_cons_cons]
          unfold commonPrefix
          split
          · rename_i hab
            have hbyte : (UInt8.ofNat a.toNat == UInt8.ofNat b.toNat) = true :=
              beq_iff_eq.mpr ((byte_eq_iff ha hb).mpr hab)
            rw [List.takeWhile_cons, if_pos hbyte, List.length_cons, hshared, byteLength, hsize,
              Nat.add_comm]
          · rename_i hab
            have hbyte : ¬ (UInt8.ofNat a.toNat == UInt8.ofNat b.toNat) = true :=
              fun heq => hab ((byte_eq_iff ha hb).mp (beq_iff_eq.mp heq))
            rw [List.takeWhile_cons, if_neg hbyte]
            rfl

theorem byteShared_some {current : List Char} (h : IsMargin current) (line : Line) :
    byteShared (some current) line = some (some (commonPrefix current (indentOf line))) := by
  obtain ⟨back, hback⟩ := (prefix_commonPrefix_iff.mp
    (List.prefix_refl (commonPrefix current (indentOf line)))).left
  have hcut := cutBytes_append (commonPrefix current (indentOf line)) back
  rw [hback] at hcut
  unfold byteShared
  rw [byteIndentOf_eq, Option.bind_eq_bind, Option.bind_some]
  dsimp only
  rw [sharedBytes_eq h (isMargin_indentOf line), hcut]
  rfl

theorem foldlM_byteShared {current : List Char} (h : IsMargin current) (block : List Line) :
    block.foldlM byteShared (some current) =
      some (some ((block.map indentOf).foldl commonPrefix current)) := by
  induction block generalizing current with
  | nil => rfl
  | cons line rest ih =>
      have hshared : commonPrefix current (indentOf line) <+: current :=
        (prefix_commonPrefix_iff.mp List.prefix_rfl).left
      rw [List.foldlM_cons, byteShared_some h, Option.bind_eq_bind, Option.bind_some,
        ih (h.of_front hshared)]
      rfl

theorem foldlM_byteShared_none (block : List Line) :
    (block.foldlM byteShared none).map (Option.getD · []) =
      some (commonPrefixOf (block.map indentOf)) := by
  cases block with
  | nil => rfl
  | cons first rest =>
      have hfirst : byteShared none first = some (some (indentOf first)) := by
        unfold byteShared
        rw [byteIndentOf_eq]
        rfl
      rw [List.foldlM_cons, hfirst, Option.bind_eq_bind, Option.bind_some,
        foldlM_byteShared (isMargin_indentOf first)]
      rfl

theorem byteUnindent_eq {indent : List Char} {line : Line}
    (h : isBlankLine line = false -> indent <+: line) :
    byteUnindent indent line = some (unindent indent line) := by
  cases hblank : isBlankLine line with
  | true =>
      unfold byteUnindent unindent
      rw [if_pos hblank, if_pos hblank]
  | false =>
      obtain ⟨piece, rfl⟩ := h hblank
      unfold byteUnindent unindent
      rw [hblank, if_neg Bool.false_ne_true, if_neg Bool.false_ne_true, cutBytes_append,
        List.drop_left]
      rfl

theorem mapM_eq_some {alpha beta : Type} {f : alpha -> Option beta} {g : alpha -> beta}
    {list : List alpha} (h : forall x, x ∈ list -> f x = some (g x)) :
    list.mapM f = some (list.map g) := by
  induction list with
  | nil => rfl
  | cons x rest ih =>
      rw [List.mapM_cons, h x List.mem_cons_self,
        ih fun y hy => h y (List.mem_cons_of_mem _ hy)]
      rfl

/-- No cut fails. -/
theorem byteDedent_eq (block : List Line) : byteDedent block = some (dedent block) := by
  obtain ⟨shared, hshared, hindent⟩ := Option.map_eq_some_iff.mp
    (foldlM_byteShared_none (block.filter fun line => !isBlankLine line))
  have hpieces : block.mapM (byteUnindent (sharedIndent block)) = some (dedentLines block) :=
    mapM_eq_some fun line hline => byteUnindent_eq (sharedIndent_opens hline)
  unfold byteDedent
  rw [hshared, Option.bind_eq_bind, Option.bind_some, hindent]
  change (block.mapM (byteUnindent (sharedIndent block))).bind _ = _
  rw [hpieces]
  rfl

/-!
# Excerpts
-/

theorem splitAt_dedent {block : List Line} (hne : block ≠ [])
    (h : forall line, line ∈ block -> '\n' ∉ line) :
    splitAt '\n' (dedent block) = dedentLines block := by
  have hpieces : forall piece, piece ∈ dedentLines block -> '\n' ∉ piece := by
    intro piece hpiece
    obtain ⟨line, hline, rfl⟩ := List.mem_map.mp hpiece
    unfold unindent
    split
    · exact List.not_mem_nil
    · exact fun hmem => h line hline (List.mem_of_mem_drop hmem)
  unfold dedent
  rw [joinLines_eq_joinWith, splitAt_joinWith _ hpieces]
  exact fun hnil => hne (List.map_eq_nil_iff.mp hnil)

/-- The lines of an excerpt have lost exactly the indentation that they share.  Every cut in
them is between two characters, and doing it again changes nothing. -/
theorem dedent_strips {block : List Line} (h : forall line, line ∈ block -> '\n' ∉ line) :
    (exists indent pieces, Stripped block indent pieces ∧
      splitAt '\n' (dedent block) = if block = [] then [[]] else pieces) ∧
    byteDedent block = some (dedent block) ∧
    dedent (splitAt '\n' (dedent block)) = dedent block := by
  refine ⟨⟨sharedIndent block, dedentLines block, stripped_dedentLines block, ?_⟩,
    byteDedent_eq block, ?_⟩
  · split
    · rename_i hnil
      rw [hnil]
      rfl
    · rename_i hne
      exact splitAt_dedent hne h
  · by_cases hne : block = []
    · rw [hne]
      rfl
    · rw [splitAt_dedent hne h]
      unfold dedent
      rw [dedentLines_dedentLines]

theorem dedent_strips_tabs :
    (exists indent pieces, Stripped ["\t  é".toList, [], "\t y".toList] indent pieces ∧
      splitAt '\n' (dedent ["\t  é".toList, [], "\t y".toList]) = pieces) ∧
    byteDedent ["\t  é".toList, [], "\t y".toList] = some " é\n\ny".toList := by
  have hlines : forall line, line ∈ ["\t  é".toList, [], "\t y".toList] -> '\n' ∉ line := by
    decide +kernel
  obtain ⟨⟨indent, pieces, hstripped, hpieces⟩, hbytes, _⟩ := dedent_strips hlines
  have htext : dedent ["\t  é".toList, [], "\t y".toList] = " é\n\ny".toList := by
    decide +kernel
  exact ⟨⟨indent, pieces, hstripped, hpieces⟩, htext ▸ hbytes⟩

end Excerpt
end LessonPress

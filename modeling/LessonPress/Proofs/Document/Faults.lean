import LessonPress.Proofs.Document.Blocks
import LessonPress.Proofs.Document.Extents

/-!
# Where errors are

## An error is on a line of the text

The reader of a tag never leaves the text that it is given: the line it stands on and the line
feeds in front of it come to the last line of the text.  So an error that it reports is
between the line it starts on and that one.
-/

namespace LessonPress

open Text

def ParseError.Within (first last : Nat) (cause : ParseError) : Prop :=
  first ≤ cause.line ∧ cause.line ≤ last

theorem ParseError.Within.mono {first last lower upper : Nat} {cause : ParseError}
    (h : cause.Within first last) (hlower : lower ≤ first) (hupper : last ≤ upper) :
    cause.Within lower upper :=
  ⟨Nat.le_trans hlower h.left, Nat.le_trans h.right hupper⟩

namespace Cursor

/-!
# Opening tags
-/

def lastLine (cursor : Cursor) : Nat :=
  cursor.line + lineFeeds cursor.rest

structure Leads (cursor next : Cursor) : Prop where
  line : cursor.line ≤ next.line
  lastLine : next.lastLine = cursor.lastLine

namespace Leads

variable {cursor next after : Cursor}

theorem of_append {text : List Char} (hrest : cursor.rest = text ++ next.rest)
    (hline : next.line = cursor.line + lineFeeds text) : Leads cursor next := by
  refine ⟨by rw [hline]; exact Nat.le_add_right _ _, ?_⟩
  unfold Cursor.lastLine
  rw [hrest, hline, lineFeeds_append, Nat.add_assoc]

theorem trans (h : Leads cursor next) (hafter : Leads next after) : Leads cursor after :=
  ⟨Nat.le_trans h.line hafter.line, hafter.lastLine.trans h.lastLine⟩

theorem within (h : Leads cursor next) {cause : ParseError}
    (hcause : cause.Within next.line next.lastLine) : cause.Within cursor.line cursor.lastLine :=
  hcause.mono h.line (Nat.le_of_eq h.lastLine)

end Leads

theorem leads_skipBlanks (cursor : Cursor) : Leads cursor cursor.skipBlanks := by
  obtain ⟨gap, _, hrest, hline, _⟩ := exists_skipBlanks cursor
  exact .of_append hrest hline

theorem within_of_readValue {name : String} {cursor : Cursor} {cause : ParseError}
    (h : readValue name cursor = .error cause) : cause.Within cursor.line cursor.lastLine := by
  have hhere : forall fault, (⟨cursor.line, fault⟩ : ParseError).Within cursor.line
      cursor.lastLine :=
    fun _ => ⟨Nat.le_refl _, Nat.le_add_right _ _⟩
  unfold readValue at h
  split at h
  · cases h
    exact hhere _
  · rename_i c rest hrest
    split at h
    · split at h
      · cases h
        exact hhere _
      · cases h
    · split at h
      · rename_i hbrace
        split at h
        · cases h
          refine ⟨Nat.le_add_right _ _, ?_⟩
          unfold lastLine
          rw [hrest, hbrace]
          exact Nat.le_of_eq (congrArg _ (lineFeeds_cons (by decide) _).symm)
        · cases h
      · cases h
        exact hhere _

theorem within_of_readAttribute {element : String} {cursor : Cursor} {cause : ParseError}
    (h : readAttribute element cursor = .error cause) :
    cause.Within cursor.line cursor.lastLine := by
  unfold readAttribute at h
  split at h
  · cases h
    exact ⟨Nat.le_refl _, Nat.le_add_right _ _⟩
  · rename_i name rest hname
    obtain ⟨hisName, htext, _⟩ := isName_of_readName hname
    have hstart : Leads cursor ⟨rest, cursor.line⟩ := by
      refine .of_append htext ?_
      rw [lineFeeds_eq_zero (feed_not_mem_of_isName hisName)]
      rfl
    have hskip := hstart.trans (leads_skipBlanks ⟨rest, cursor.line⟩)
    dsimp only at h
    split at h
    · rename_i tail htail
      have hsign : Leads (skipBlanks ⟨rest, cursor.line⟩)
          ⟨tail, (skipBlanks ⟨rest, cursor.line⟩).line⟩ := by
        have hequals : (skipBlanks ⟨rest, cursor.line⟩).rest = ['='] ++ tail := htail
        exact .of_append hequals rfl
      have hbehind := (hskip.trans hsign).trans (leads_skipBlanks _)
      split at h
      · rename_i hvalue
        cases h
        exact hbehind.within (within_of_readValue hvalue)
      · cases h
    · cases h

theorem leads_of_readAttribute {element : String} {cursor next : Cursor} {entry : Attribute}
    (h : readAttribute element cursor = .ok (entry, next)) : Leads cursor next := by
  obtain ⟨text, gap, _, _, hrest, hline, _⟩ := spelled_of_readAttribute h
  have hboth : cursor.rest = (text ++ gap) ++ next.rest := by
    rw [hrest, List.append_assoc]
  refine .of_append hboth ?_
  rw [hline, lineFeeds_append, Nat.add_assoc]

theorem within_of_readAttributes {element : String} {firstLine : Nat} {cursor : Cursor}
    {cause : ParseError} (hfirst : firstLine ≤ cursor.line)
    (h : readAttributes element firstLine cursor = .error cause) :
    cause.Within firstLine cursor.lastLine := by
  fun_induction readAttributes element firstLine cursor with
  | case1 cursor hrest =>
      cases h
      exact ⟨Nat.le_refl _, Nat.le_trans hfirst (Nat.le_add_right _ _)⟩
  | case3 cursor rest _ hmark =>
      cases h
      have hskip := leads_skipBlanks cursor
      refine ⟨?_, ?_⟩
      · exact Nat.le_trans (Nat.le_trans hfirst hskip.line) (Nat.le_add_right _ _)
      · rw [← hskip.lastLine]
        unfold lastLine
        rw [hmark, lineFeeds_cons (by decide)]
        exact Nat.add_le_add_left ((List.take_sublist 1 rest).count_le _) _
  | case5 cursor _ _ _ _ _ _ cause hentry =>
      cases h
      exact ((leads_skipBlanks cursor).within (within_of_readAttribute hentry)).mono hfirst
        (Nat.le_refl _)
  | case6 cursor _ _ _ _ _ _ entry next hentry cause hread ih =>
      cases h
      have hnext := (leads_skipBlanks cursor).trans (leads_of_readAttribute hentry)
      have hwithin := ih (Nat.le_trans hfirst hnext.line) hread
      exact hwithin.mono (Nat.le_refl _) (Nat.le_of_eq hnext.lastLine)
  | _ => cases h

theorem within_of_readTag {cursor : Cursor} {cause : ParseError}
    (h : readTag cursor = .error cause) : cause.Within cursor.line cursor.lastLine := by
  unfold readTag at h
  dsimp only at h
  split at h
  · rename_i hread
    cases h
    have hstart : Leads cursor ⟨cursor.rest.dropWhile isNamePart, cursor.line⟩ := by
      refine .of_append List.takeWhile_append_dropWhile.symm ?_
      rw [lineFeeds_eq_zero (feed_not_mem_of_named (List.all_eq_true.mp List.all_takeWhile))]
      rfl
    exact hstart.within (within_of_readAttributes hstart.line hread)
  · cases h

theorem leads_of_readTag {cursor next : Cursor} {tag : Tag}
    (h : readTag cursor = .ok (tag, next)) : Leads cursor next := by
  obtain ⟨text, hnamed, _, _, hrest, hline⟩ := spelled_of_readTag h
  have hboth : cursor.rest = (tag.name.toList ++ text) ++ next.rest := by
    rw [hrest, List.append_assoc]
  refine .of_append hboth ?_
  rw [hline, lineFeeds_append, lineFeeds_eq_zero (feed_not_mem_of_named hnamed), Nat.zero_add]

end Cursor

namespace Parser

/-!
# Elements
-/

theorem lastLine_le {number : Nat} {first : Line} {rest : List Line}
    (hlines : forall line, line ∈ first :: rest -> '\n' ∉ line) :
    Cursor.lastLine ⟨(joinLines (trimStart first :: rest)).drop 1, number⟩ ≤
      number + rest.length := by
  rw [← count_joinLines (not_feed_of_trimStart hlines)]
  exact Nat.add_le_add_left ((List.drop_sublist 1 _).count_le _) _

theorem within_of_readExtent {number : Nat} {first : Line} {rest : List Line} {cause : ParseError}
    (hlines : forall line, line ∈ first :: rest -> '\n' ∉ line)
    (h : readExtent number first rest = .error cause) :
    cause.Within number (number + rest.length) := by
  unfold readExtent at h
  split at h
  · rename_i hread
    cases h
    exact (Cursor.within_of_readTag hread).mono (Nat.le_refl _) (lastLine_le hlines)
  · rename_i tag cursor hread
    have hlead := Cursor.leads_of_readTag hread
    have hhere : forall fault, (⟨cursor.line, fault⟩ : ParseError).Within number
        (number + rest.length) := by
      intro fault
      refine ⟨hlead.line, ?_⟩
      have hle := Nat.le_trans (Nat.le_of_eq hlead.lastLine) (lastLine_le hlines)
      exact Nat.le_trans (Nat.le_add_right _ _) hle
    dsimp only at h
    split at h
    · split at h
      · cases h
      · cases h
        exact hhere _
    · split at h
      · split at h
        · cases h
          exact hhere _
        · cases h
      · split at h
        · cases h
          exact ⟨Nat.le_refl _, Nat.le_add_right _ _⟩
        · cases h

end Parser

namespace Frontmatter

theorem within_of_read {document : List Line} {cause : ParseError}
    (h : read document = .error cause) : cause.Within 1 document.length := by
  unfold read at h
  split at h
  · cases h
  · split at h
    · split at h
      · cases h
        exact ⟨Nat.le_refl 1, Nat.le_add_left 1 _⟩
      · cases h
    · cases h

end Frontmatter

namespace Parser

/-!
# Blocks
-/

theorem error_of_bind {epsilon alpha beta : Type} {first : Except epsilon alpha}
    {next : alpha -> Except epsilon beta} {cause : epsilon} (h : (first >>= next) = .error cause) :
    first = .error cause ∨ exists value, first = .ok value ∧ next value = .error cause := by
  cases first with
  | error found =>
      cases h
      exact Or.inl rfl
  | ok value => exact Or.inr ⟨value, rfl, h⟩

theorem error_of_bind_cons {node : Node} {more : Except ParseError (List Node)}
    {cause : ParseError} (h : (do
      let others ← more
      .ok (node :: others)) = (.error cause : Except ParseError (List Node))) :
    more = .error cause := by
  cases more with
  | error found =>
      cases h
      rfl
  | ok others => cases h

theorem within_block {number : Nat} {first : Line} {rest part : List Line} {cause : ParseError}
    (offset : Nat) (hpart : part.length ≤ (rest.drop offset).length)
    (h : cause.Within (number + offset + 1) (number + offset + 1 + part.length - 1)) :
    cause.Within number (number + (first :: rest).length - 1) := by
  unfold ParseError.Within at h ⊢
  rw [List.length_drop] at hpart
  rw [List.length_cons]
  omega

theorem within_of_parseBlocks {number : Nat} {block : List Line} {cause : ParseError}
    (hlines : forall line, line ∈ block -> '\n' ∉ line)
    (h : parseBlocks number block = .error cause) :
    cause.Within number (number + block.length - 1) := by
  have hrest : forall {first : Line} {rest : List Line},
      (forall line, line ∈ first :: rest -> '\n' ∉ line) -> forall count line,
        line ∈ rest.drop count -> '\n' ∉ line :=
    fun hlines _ line hline => hlines line (List.mem_cons_of_mem _ (List.mem_of_mem_drop hline))
  fun_induction parseBlocks number block with
  | case1 => cases h
  | case2 number first rest hkind ih =>
      exact within_block 0 (Nat.le_refl _) (ih (hrest hlines 0) h)
  | case3 number first rest fence hkind hlength =>
      cases h
      exact ⟨Nat.le_refl _, by rw [List.length_cons]; exact Nat.le_add_right _ _⟩
  | case4 number first rest fence hkind count hlength ih =>
      exact within_block (count + 1) (Nat.le_refl _) (ih (hrest hlines _) (error_of_bind_cons h))
  | case5 number first rest depth title hkind ih =>
      exact within_block 0 (Nat.le_refl _) (ih (hrest hlines 0) (error_of_bind_cons h))
  | case6 number first rest hkind ih =>
      exact within_block 0 (Nat.le_refl _) (ih (hrest hlines 0) (error_of_bind_cons h))
  | case7 number first rest hkind block ih =>
      exact within_block _ (Nat.le_refl _) (ih (hrest hlines _) (error_of_bind_cons h))
  | case8 number first rest hkind block ih =>
      exact within_block _ (Nat.le_refl _) (ih (hrest hlines _) (error_of_bind_cons h))
  | case9 number first rest hkind cause hextent =>
      cases h
      exact within_of_readExtent hlines hextent
  | case10 number first rest hkind tag tagLines children hextent ih =>
      exact within_block _ (Nat.le_refl _) (ih (hrest hlines _) (error_of_bind_cons h))
  | case11 number first rest hkind tag tagLines count hextent ihchildren ihmore =>
      rcases error_of_bind h with hchildren | ⟨children, _, hmore⟩
      · have hinside := ihchildren (fun line hline =>
          hrest hlines tagLines line (List.mem_of_mem_take hline)) hchildren
        exact within_block tagLines (List.take_sublist _ _).length_le hinside
      · have hbehind := ihmore (hrest hlines _) (error_of_bind_cons hmore)
        rw [show number + tagLines + count + 2 = number + (tagLines + count + 1) + 1 by omega]
          at hbehind
        exact within_block _ (Nat.le_refl _) hbehind

end Parser

namespace Document

theorem within_of_parse {source : String} {cause : ParseError} (h : parse source = .error cause) :
    cause.Within 1 (linesOf source).length := by
  unfold parse at h
  dsimp only at h
  split at h
  · rename_i hread
    cases h
    exact Frontmatter.within_of_read hread
  · rename_i values count hread
    split at h
    · rename_i hblocks
      cases h
      have hwithin := Parser.within_of_parseBlocks (fun line hline =>
        feed_not_mem_of_mem_linesOf (List.mem_of_mem_drop hline)) hblocks
      unfold ParseError.Within at hwithin ⊢
      rw [List.length_drop] at hwithin
      omega
    · cases h

end Document
end LessonPress

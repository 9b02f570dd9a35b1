import LessonPress.Text.Lines

/-!
# Splitting

## The pieces of a text between its separators

A text has exactly one list of pieces: those without a separator in them that make up the text
with a separator between each two.
-/

namespace LessonPress
namespace Text

theorem separator_not_mem_splitAt {separator : Char} {text piece : List Char}
    (h : piece ∈ splitAt separator text) : separator ∉ piece := by
  induction text generalizing piece with
  | nil =>
      rw [splitAt, List.mem_singleton] at h
      rw [h]
      exact List.not_mem_nil
  | cons c rest ih =>
      unfold splitAt at h
      split at h
      · cases List.mem_cons.mp h with
        | inl hempty =>
            rw [hempty]
            exact List.not_mem_nil
        | inr hrest => exact ih hrest
      · rename_i hc
        cases hsplit : splitAt separator rest with
        | nil => exact absurd hsplit (splitAt_ne_nil separator rest)
        | cons front following =>
            rw [hsplit] at h ih
            cases List.mem_cons.mp h with
            | inl hfront =>
                rw [hfront, List.mem_cons]
                intro hmem
                cases hmem with
                | inl heq => exact hc heq.symm
                | inr hmem => exact ih List.mem_cons_self hmem
            | inr hfollowing => exact ih (List.mem_cons_of_mem _ hfollowing)

theorem infix_joinWith (separator : List Char) {pieces : List (List Char)} {piece : List Char}
    (h : piece ∈ pieces) : piece <:+: joinWith separator pieces := by
  induction pieces with
  | nil => cases h
  | cons front following ih =>
      cases following with
      | nil =>
          rw [List.mem_singleton.mp h]
          exact List.infix_rfl
      | cons next more =>
          rw [joinWith_cons_cons]
          cases List.mem_cons.mp h with
          | inl heq =>
              rw [heq, List.append_assoc]
              exact (List.prefix_append _ _).isInfix
          | inr hmem => exact (ih hmem).trans (List.suffix_append _ _).isInfix

theorem infix_of_mem_splitAt {separator : Char} {text piece : List Char}
    (h : piece ∈ splitAt separator text) : piece <:+: text := by
  have hpiece := infix_joinWith [separator] h
  rw [joinWith_splitAt] at hpiece
  exact hpiece

theorem splitAt_of_not_mem {separator : Char} {text : List Char} (h : separator ∉ text) :
    splitAt separator text = [text] := by
  induction text with
  | nil => rfl
  | cons c rest ih =>
      have hc : c ≠ separator := fun heq => h (heq ▸ List.mem_cons_self)
      rw [splitAt, if_neg hc, ih fun hmem => h (List.mem_cons_of_mem _ hmem)]

theorem splitAt_append (separator : Char) (front rest : List Char) :
    splitAt separator (front ++ separator :: rest) =
      splitAt separator front ++ splitAt separator rest := by
  induction front with
  | nil =>
      show (if separator = separator then _ else _) = _
      rw [if_pos rfl]
      rfl
  | cons c front ih =>
      rw [List.cons_append, splitAt, splitAt, ih]
      by_cases hc : c = separator
      · rw [if_pos hc, if_pos hc, List.cons_append]
      · rw [if_neg hc, if_neg hc]
        cases hsplit : splitAt separator front with
        | nil => exact absurd hsplit (splitAt_ne_nil separator front)
        | cons piece following => rfl

theorem splitAt_joinWith {separator : Char} {pieces : List (List Char)} (hne : pieces ≠ [])
    (h : forall piece, piece ∈ pieces -> separator ∉ piece) :
    splitAt separator (joinWith [separator] pieces) = pieces := by
  induction pieces with
  | nil => exact absurd rfl hne
  | cons piece following ih =>
      have hpiece := splitAt_of_not_mem (h piece List.mem_cons_self)
      cases following with
      | nil => exact hpiece
      | cons next more =>
          rw [joinWith_cons_cons, List.append_assoc, List.singleton_append, splitAt_append, hpiece,
            ih (List.cons_ne_nil _ _) fun other hother => h other (List.mem_cons_of_mem _ hother),
            List.singleton_append]

theorem head?_splitAt {separator : Char} {text : List Char} (h : text.head? ≠ some separator)
    (hne : text ≠ []) : (splitAt separator text).head? ≠ some [] := by
  cases text with
  | nil => exact absurd rfl hne
  | cons c rest =>
      have hc : c ≠ separator := fun heq => h (congrArg some heq)
      rw [splitAt, if_neg hc]
      cases splitAt separator rest with
      | nil => simp
      | cons piece following => simp

/-- The pieces of a text, by what they are and not by how they are found. -/
structure Pieces (separator : Char) (text : List Char) (pieces : List (List Char)) : Prop where
  nonempty : pieces ≠ []
  plain : forall piece, piece ∈ pieces -> separator ∉ piece
  joined : joinWith [separator] pieces = text

theorem pieces_iff {separator : Char} {text : List Char} {pieces : List (List Char)} :
    Pieces separator text pieces <-> splitAt separator text = pieces := by
  constructor
  · intro h
    rw [← h.joined]
    exact splitAt_joinWith h.nonempty h.plain
  · intro h
    rw [← h]
    constructor
    case nonempty => exact splitAt_ne_nil separator text
    case plain => exact fun piece hpiece => separator_not_mem_splitAt hpiece
    case joined => exact joinWith_splitAt separator text

/-!
# Cutting at the first separator
-/

theorem cutAt_append {separator : Char} {before : List Char} (h : separator ∉ before)
    (after : List Char) :
    cutAt separator (before ++ separator :: after) = some (before, after) := by
  induction before with
  | nil =>
      rw [List.nil_append, cutAt, if_pos rfl]
  | cons c rest ih =>
      have hc : c ≠ separator := fun heq => h (heq ▸ List.mem_cons_self)
      have hrest : separator ∉ rest := fun hmem => h (List.mem_cons_of_mem _ hmem)
      rw [List.cons_append, cutAt, if_neg hc, ih hrest]
      rfl

theorem eq_append_of_cutAt {separator : Char} {text before after : List Char}
    (h : cutAt separator text = some (before, after)) :
    separator ∉ before ∧ text = before ++ separator :: after := by
  induction text generalizing before with
  | nil => cases h
  | cons c rest ih =>
      rw [cutAt] at h
      split at h
      · rename_i hc
        cases h
        rw [hc]
        exact ⟨List.not_mem_nil, rfl⟩
      · rename_i hc
        rw [Option.map_eq_some_iff] at h
        obtain ⟨⟨inner, tail⟩, hinner, heq⟩ := h
        cases heq
        obtain ⟨hmem, hrest⟩ := ih hinner
        refine ⟨?_, by rw [hrest, List.cons_append]⟩
        rw [List.mem_cons]
        rintro (heq | hinside)
        · exact hc heq.symm
        · exact hmem hinside

end Text
end LessonPress

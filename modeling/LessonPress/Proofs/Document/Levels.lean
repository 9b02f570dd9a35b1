import LessonPress.Proofs.Document.Relaid

/-!
# Levels of the search

## What a tag with other blanks does to the search for a closing line

The search goes over a tag in the same way on whatever lines it stands, but for one thing:
whether the tag opens a nested element of the name is seen from its first line alone.  One
level lower the search ends too early, and one level higher it ends too late.
-/

namespace LessonPress

open Text

namespace Parser

/-!
# Plain lines
-/

theorem not_mark_of_start {c : Char} (h : c = '>' ∨ c = '/' ∨ isNameStart c = true) :
    c ≠ '`' ∧ c ≠ '~' ∧ c ≠ '<' := by
  rcases h with rfl | rfl | hname
  · decide
  · decide
  · refine ⟨?_, ?_, ?_⟩
    · rintro rfl
      rw [(not_name_of_mark '`' (by decide)).right] at hname
      cases hname
    · rintro rfl
      rw [(not_name_of_mark '~' (by decide)).right] at hname
      cases hname
    · rintro rfl
      rw [(not_name_of_mark '<' (by decide)).right] at hname
      cases hname

theorem Plain.marks {line : Line} (h : Plain line) {c : Char}
    (hc : (trimStart line).head? = some c) : c ≠ '`' ∧ c ≠ '~' ∧ c ≠ '<' := by
  rcases h with hblank | ⟨d, rest, hstart, hd⟩
  · rw [(trimStart_eq_nil_iff line).mpr hblank] at hc
    cases hc
  · rw [hstart] at hc
    cases hc
    exact not_mark_of_start hd

theorem Plain.marks_trim {line : Line} (h : Plain line) {c : Char}
    (hc : (trim line).head? = some c) : c ≠ '`' ∧ c ≠ '~' ∧ c ≠ '<' := by
  obtain ⟨tail, htail⟩ := prefix_trim line
  obtain ⟨rest, hrest⟩ := List.head?_eq_some_iff.mp hc
  apply h.marks
  rw [← htail, hrest]
  rfl

theorem Plain.ofLine? {line : Line} (h : Plain line) : Fence.ofLine? line = none :=
  Fence.ofLine?_of_head? fun _ hc => ⟨(h.marks hc).left, (h.marks hc).right.left⟩

namespace Search

variable {name : String} {search : Search} {line : Line}

def Opened (search : Search) : Prop :=
  forall fence, search.fence = some fence -> exists line, Fence.ofLine? line = some fence

theorem opened_after? {block : List Line} (h : start.after? name block = some search) :
    search.Opened := by
  intro fence hfence
  rw [fence_after? h] at hfence
  rcases Fence.exists_of_scan hfence with hnone | ⟨line, _, hline⟩
  · cases hnone
  · exact ⟨line, hline⟩

def behind (search : Search) (name : String) (line : Line) : Search :=
  match search.fence with
  | some _ => search
  | none => ⟨if opensNested name (trim line) then search.depth + 1 else search.depth, none⟩

theorem next?_eq_behind (hopened : search.Opened) (hfence : Fence.ofLine? line = none)
    (hmarks : forall c, (trim line).head? = some c -> c ≠ '`' ∧ c ≠ '~')
    (hclosing : trim line ≠ closingText name) :
    search.next? name line = some (search.behind name line) := by
  obtain ⟨depth, fence⟩ := search
  unfold behind
  cases fence with
  | some fence =>
      obtain ⟨opening, hopening⟩ := hopened fence rfl
      rw [next?_fenced rfl, Fence.not_closes hopening hmarks]
      rfl
  | none => exact next?_open rfl hfence hclosing

theorem next?_plain (h : Plain line) (hopened : search.Opened) :
    search.next? name line = some search := by
  have hhead : (trim line).head? ≠ some '<' := fun hc => (h.marks_trim hc).right.right rfl
  obtain ⟨hclosing, hnested⟩ := not_tag_of_head name hhead
  rw [next?_eq_behind hopened h.ofLine?
    (fun c hc => ⟨(h.marks_trim hc).left, (h.marks_trim hc).right.left⟩) hclosing]
  obtain ⟨depth, fence⟩ := search
  unfold behind
  rw [hnested]
  cases fence <;> rfl

theorem after?_plain {block : List Line} (h : forall line, line ∈ block -> Plain line)
    (hopened : search.Opened) : search.after? name block = some search := by
  induction block with
  | nil => rfl
  | cons line rest ih =>
      rw [after?, next?_plain (h line List.mem_cons_self) hopened]
      exact ih fun other hother => h other (List.mem_cons_of_mem _ hother)

theorem next?_tag (h : LineKind.of line = .element) (hopened : search.Opened) :
    search.next? name line = some (search.behind name line) := by
  obtain ⟨c, rest, hstart, hupper⟩ := LineKind.exists_opening h
  have htrim := LineKind.trim_of_opening hstart hupper
  apply next?_eq_behind hopened
  · apply LineKind.ofLine?_eq_none
    rw [h]
    nofun
  · rw [htrim]
    rintro d ⟨⟩
    decide
  · rw [htrim]
    intro heq
    rw [(List.cons.inj (List.cons.inj heq).right).left] at hupper
    cases hupper

/-!
# Deeper levels
-/

theorem next?_deeper (count : Nat) {depth : Nat} {fence : Option Fence} {next : Search}
    (h : (⟨depth, fence⟩ : Search).next? name line = some next) :
    (⟨depth + count, fence⟩ : Search).next? name line = some ⟨next.depth + count, next.fence⟩ := by
  unfold next? at h ⊢
  cases fence with
  | some fence =>
      cases h
      rfl
  | none =>
      dsimp only at h ⊢
      cases hline : Fence.ofLine? line with
      | some fence =>
          rw [hline] at h
          cases h
          rfl
      | none =>
          rw [hline] at h
          dsimp only at h ⊢
          split at h
          · rename_i hclosing
            rw [if_pos hclosing]
            cases depth with
            | zero => cases h
            | succ depth =>
                cases h
                rw [Nat.add_right_comm]
          · rename_i hclosing
            rw [if_neg hclosing]
            split at h
            · rename_i hnested
              rw [if_pos hnested, Nat.add_right_comm]
              cases h
              rfl
            · rename_i hnested
              rw [if_neg hnested]
              cases h
              rfl

theorem after?_deeper (count : Nat) {depth : Nat} {fence : Option Fence} {next : Search}
    {block : List Line} (h : (⟨depth, fence⟩ : Search).after? name block = some next) :
    (⟨depth + count, fence⟩ : Search).after? name block =
      some ⟨next.depth + count, next.fence⟩ := by
  induction block generalizing depth fence with
  | nil =>
      cases h
      rfl
  | cons line rest ih =>
      rw [after?, Option.bind_eq_some_iff] at h
      obtain ⟨between, hline, hrest⟩ := h
      rw [after?, next?_deeper count hline]
      exact ih hrest

/-- The search comes out in one place from one depth only. -/
theorem depth_unique {depth other : Nat} {fence : Option Fence} {next : Search} {block : List Line}
    (h : (⟨depth, fence⟩ : Search).after? name block = some next)
    (hother : (⟨other, fence⟩ : Search).after? name block = some next) : depth = other := by
  rcases Nat.le_total depth other with hle | hle
  · obtain ⟨count, rfl⟩ := Nat.exists_eq_add_of_le hle
    rw [after?_deeper count h, Option.some.injEq] at hother
    have hdepth := congrArg Search.depth hother
    dsimp only at hdepth
    omega
  · obtain ⟨count, rfl⟩ := Nat.exists_eq_add_of_le hle
    rw [after?_deeper count hother, Option.some.injEq] at h
    have hdepth := congrArg Search.depth h
    dsimp only at hdepth
    omega

end Search

/-!
# Tags with other blanks
-/

section Relined

variable {tag : Tag} {line first : Line} {more : List Line}
  {indent text other remainder : List Char}
  (h : Relined tag line first more indent text other remainder) (htag : TagLine tag line text)
  (hline : '\n' ∉ line)
include h htag hline

/-- The lines of a tag do to the search what the first of them does. -/
theorem Relined.after? {search : Search} (name : String) (hopened : search.Opened) :
    search.after? name (first :: more) = some (search.behind name first) := by
  have hbehind : (search.behind name first).Opened := by
    unfold Search.behind
    cases hfence : search.fence with
    | some fence => exact hopened
    | none => nofun
  rw [Search.after?, Search.next?_tag (h.kind_other htag hline) hopened]
  exact Search.after?_plain (h.plain hline) hbehind

/-- The search comes out in the same place behind the tag with other blanks exactly if it takes
the two first lines in the same way, unless it is inside a fence. -/
theorem Relined.found_iff {name : String} {front after : List Line}
    (hfound : Search.start.after? name (front ++ line :: after) = some .start) :
    Search.start.after? name (front ++ first :: (more ++ after)) = some .start <->
      (Fence.scan none front = none ->
        opensNested name (trim first) = opensNested name (trim line)) := by
  rw [Search.after?_append, Option.bind_eq_some_iff] at hfound
  obtain ⟨search, hfront, hrest⟩ := hfound
  have hopened := Search.opened_after? hfront
  have hfence : search.fence = Fence.scan none front := Search.fence_after? hfront
  rw [Search.after?, Search.next?_tag htag.kind hopened, Option.bind_some] at hrest
  rw [Search.after?_append, hfront, Option.bind_some, ← List.cons_append, Search.after?_append,
    h.after? htag hline name hopened, Option.bind_some, ← hfence]
  obtain ⟨depth, fence⟩ := search
  unfold Search.behind at hrest ⊢
  cases fence with
  | some fence =>
      refine iff_of_true hrest ?_
      intro hnone
      cases hnone
  | none =>
      -- the same lines follow, so the search comes out alike only from one depth
      constructor
      · intro hother _
        have hdepth := Search.depth_unique hother hrest
        cases hfirst : opensNested name (trim first) <;>
          cases hown : opensNested name (trim line) <;>
          simp [hfirst, hown] at hdepth ⊢
      · intro hsame
        rw [hsame rfl]
        exact hrest

end Relined

end Parser
end LessonPress

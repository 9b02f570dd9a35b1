import LessonPress.Document.Parser
import LessonPress.Proofs.Document.Kinds
import LessonPress.Proofs.Text.Lines

/-!
# The search for a closing line

## What a line does to the search

Between two lines the search knows how many elements of the name are open and whether it is
inside a fence.  A line either moves it on from there or is the line that it looks for.
-/

namespace LessonPress

open Text

namespace Fence

def next (inside : Option Fence) (line : Line) : Option Fence :=
  match inside with
  | some fence => if fence.closes line then none else some fence
  | none => ofLine? line

/-- The fence that is open behind some lines, each of which is taken by itself. -/
def scan (inside : Option Fence) (block : List Line) : Option Fence :=
  block.foldl next inside

theorem scan_append (inside : Option Fence) (front back : List Line) :
    scan inside (front ++ back) = scan (scan inside front) back :=
  List.foldl_append

theorem exists_of_scan {inside : Option Fence} {block : List Line} {fence : Fence}
    (h : scan inside block = some fence) :
    inside = some fence ∨ exists line, line ∈ block ∧ ofLine? line = some fence := by
  induction block generalizing inside with
  | nil => exact Or.inl h
  | cons line rest ih =>
      rcases ih h with hnext | ⟨other, hother, hopens⟩
      · unfold next at hnext
        cases inside with
        | none => exact Or.inr ⟨line, List.mem_cons_self, hnext⟩
        | some current =>
            dsimp only at hnext
            split at hnext
            · cases hnext
            · exact Or.inl hnext
      · exact Or.inr ⟨other, List.mem_cons_of_mem _ hother, hopens⟩

end Fence

namespace Parser

structure Search where
  depth : Nat
  fence : Option Fence
deriving DecidableEq

namespace Search

def start : Search :=
  ⟨0, none⟩

def next? (name : String) (search : Search) (line : Line) : Option Search :=
  match search.fence with
  | some fence => some ⟨search.depth, if fence.closes line then none else some fence⟩
  | none =>
      match Fence.ofLine? line with
      | some fence => some ⟨search.depth, some fence⟩
      | none =>
          if trim line = closingText name then
            match search.depth with
            | 0 => none
            | depth + 1 => some ⟨depth, none⟩
          else if opensNested name (trim line) then some ⟨search.depth + 1, none⟩
          else some ⟨search.depth, none⟩

def after? (name : String) (search : Search) : List Line -> Option Search
  | [] => some search
  | line :: rest => (search.next? name line).bind fun next => next.after? name rest

/-!
# Single lines
-/

variable {name : String} {search : Search} {line : Line}

theorem next?_fenced {fence : Fence} (h : search.fence = some fence) :
    search.next? name line =
      some ⟨search.depth, if fence.closes line then none else some fence⟩ := by
  unfold next?
  rw [h]

theorem next?_fence {fence : Fence} (houtside : search.fence = none)
    (hline : Fence.ofLine? line = some fence) :
    search.next? name line = some ⟨search.depth, some fence⟩ := by
  unfold next?
  rw [houtside]
  dsimp only
  rw [hline]

theorem next?_open (houtside : search.fence = none) (hline : Fence.ofLine? line = none)
    (hclosing : trim line ≠ closingText name) :
    search.next? name line =
      some ⟨if opensNested name (trim line) then search.depth + 1 else search.depth, none⟩ := by
  unfold next?
  rw [houtside]
  dsimp only
  rw [hline]
  dsimp only
  rw [if_neg hclosing]
  split <;> rfl

theorem next?_eq_none_iff :
    search.next? name line = none <->
      search = start ∧ Fence.ofLine? line = none ∧ trim line = closingText name := by
  obtain ⟨depth, fence⟩ := search
  cases fence with
  | some fence => simp [next?, start]
  | none =>
      cases hline : Fence.ofLine? line with
      | some fence => simp [next?, hline]
      | none =>
          by_cases hclosing : trim line = closingText name
          · cases depth <;> simp [next?, start, hline, hclosing]
          · by_cases hnested : opensNested name (trim line) = true
            · simp [next?, hline, hclosing, hnested]
            · simp [next?, hline, hclosing, hnested]

theorem not_tag_of_head (name : String) (h : (trim line).head? ≠ some '<') :
    trim line ≠ closingText name ∧ opensNested name (trim line) = false := by
  constructor
  · intro heq
    rw [heq] at h
    exact h rfl
  · have hstarts : startsWith (openingText name) (trim line) = false := by
      rw [Bool.eq_false_iff]
      intro hprefix
      obtain ⟨tail, htail⟩ := List.isPrefixOf_iff_prefix.mp hprefix
      rw [← htail] at h
      exact h rfl
    unfold opensNested
    dsimp only
    rw [hstarts]
    rfl

/-- Inside and outside of a fence does not depend on the name. -/
theorem fence_next? {next : Search} (h : search.next? name line = some next) :
    next.fence = Fence.next search.fence line := by
  obtain ⟨depth, fence⟩ := search
  unfold next? at h
  unfold Fence.next
  cases fence with
  | some fence =>
      cases h
      rfl
  | none =>
      dsimp only at h ⊢
      cases hline : Fence.ofLine? line with
      | some fence =>
          rw [hline] at h
          cases h
          rfl
      | none =>
          rw [hline] at h
          dsimp only at h
          split at h
          · cases depth with
            | zero => cases h
            | succ depth =>
                cases h
                rfl
          · split at h <;> cases h <;> rfl

/-!
# Several lines
-/

theorem fence_after? {next : Search} {block : List Line}
    (h : search.after? name block = some next) : next.fence = Fence.scan search.fence block := by
  induction block generalizing search with
  | nil =>
      cases h
      rfl
  | cons line rest ih =>
      rw [after?, Option.bind_eq_some_iff] at h
      obtain ⟨between, hline, hrest⟩ := h
      rw [ih hrest, fence_next? hline]
      rfl

theorem after?_append (front back : List Line) :
    search.after? name (front ++ back) =
      (search.after? name front).bind fun next => next.after? name back := by
  induction front generalizing search with
  | nil => rfl
  | cons line rest ih =>
      rw [List.cons_append, after?, after?, Option.bind_assoc]
      congr 1
      funext next
      exact ih

theorem after?_singleton : search.after? name [line] = search.next? name line := by
  unfold after?
  cases search.next? name line <;> rfl

theorem after?_fenced {fence : Fence} {body : List Line} (depth : Nat)
    (hbody : forall line, line ∈ body -> fence.closes line = false) :
    (⟨depth, some fence⟩ : Search).after? name body = some ⟨depth, some fence⟩ := by
  induction body with
  | nil => rfl
  | cons line rest ih =>
      have hline := hbody line List.mem_cons_self
      rw [after?, next?_fenced rfl, hline, if_neg Bool.false_ne_true]
      exact ih fun other hother => hbody other (List.mem_cons_of_mem _ hother)

theorem after?_codeBlock {fence : Fence} {first last : Line} {body : List Line} (depth : Nat)
    (hfirst : Fence.ofLine? first = some fence)
    (hbody : forall line, line ∈ body -> fence.closes line = false)
    (hlast : fence.closes last = true) :
    (⟨depth, none⟩ : Search).after? name (first :: (body ++ [last])) = some ⟨depth, none⟩ := by
  rw [after?, next?_fence rfl hfirst, Option.bind_some, after?_append, after?_fenced depth hbody,
    Option.bind_some, after?_singleton, next?_fenced rfl, hlast, if_pos rfl]

end Search

theorem closingIndex_cons (name : String) (search : Search) (line : Line) (rest : List Line) :
    closingIndex name search.depth search.fence (line :: rest) =
      match search.next? name line with
      | none => some 0
      | some next => (closingIndex name next.depth next.fence rest).map (· + 1) := by
  obtain ⟨depth, fence⟩ := search
  cases fence with
  | some fence => rfl
  | none =>
      rw [closingIndex.eq_def]
      unfold Search.next?
      dsimp only
      cases Fence.ofLine? line with
      | some fence => rfl
      | none =>
          dsimp only
          split
          · cases depth <;> rfl
          · split <;> rfl

/-- The search goes on behind lines that do not end it. -/
theorem closingIndex_append {name : String} {search next : Search} {block : List Line}
    (h : search.after? name block = some next) (rest : List Line) :
    closingIndex name search.depth search.fence (block ++ rest) =
      (closingIndex name next.depth next.fence rest).map (· + block.length) := by
  induction block generalizing search with
  | nil =>
      cases h
      exact Option.map_id'.symm
  | cons line tail ih =>
      rw [Search.after?, Option.bind_eq_some_iff] at h
      obtain ⟨between, hline, htail⟩ := h
      rw [List.cons_append, closingIndex_cons, hline]
      dsimp only
      rw [ih htail, Option.map_map, List.length_cons]
      rfl

theorem closingIndex_eq_some_iff {name : String} (search : Search) {block : List Line}
    {count : Nat} :
    closingIndex name search.depth search.fence block = some count <->
      exists interior closing rest, block = interior ++ closing :: rest ∧
        interior.length = count ∧ search.after? name interior = some .start ∧
        Fence.ofLine? closing = none ∧ trim closing = closingText name := by
  constructor
  · intro h
    induction block generalizing search count with
    | nil =>
        obtain ⟨depth, fence⟩ := search
        cases fence <;> cases h
    | cons line tail ih =>
        rw [closingIndex_cons] at h
        split at h
        · rename_i hnone
          cases h
          obtain ⟨rfl, hfence, hclosing⟩ := Search.next?_eq_none_iff.mp hnone
          exact ⟨[], line, tail, rfl, rfl, rfl, hfence, hclosing⟩
        · rename_i next hnext
          rw [Option.map_eq_some_iff] at h
          obtain ⟨index, hindex, rfl⟩ := h
          obtain ⟨interior, closing, rest, rfl, hlength, hafter, hclosing⟩ := ih _ hindex
          refine ⟨line :: interior, closing, rest, rfl, by rw [List.length_cons, hlength], ?_,
            hclosing⟩
          rw [Search.after?, hnext]
          exact hafter
  · rintro ⟨interior, closing, rest, rfl, rfl, hafter, hclosing⟩
    rw [closingIndex_append hafter, closingIndex_cons,
      Search.next?_eq_none_iff.mpr ⟨rfl, hclosing⟩]
    simp

end Parser
end LessonPress

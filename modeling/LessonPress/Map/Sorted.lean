/-!
# Sorted maps

## Values under string keys in ascending order

The keys ascend by code points, which is also the order of their bytes in UTF-8.
-/

namespace LessonPress

structure SortedMap (alpha : Type) where
  entries : List (String × alpha)
  ascending : (entries.map (·.1)).Pairwise (· < ·)

namespace SortedMap

variable {alpha : Type}

def empty : SortedMap alpha :=
  ⟨[], List.Pairwise.nil⟩

instance : Inhabited (SortedMap alpha) :=
  ⟨empty⟩

def find? (map : SortedMap alpha) (key : String) : Option alpha :=
  (map.entries.find? fun entry => entry.1 == key).map (·.2)

/-!
# Insertion
-/

def place (key : String) (value : alpha) : List (String × alpha) -> List (String × alpha)
  | [] => [(key, value)]
  | entry :: rest =>
      if key < entry.1 then (key, value) :: entry :: rest
      else if entry.1 < key then entry :: place key value rest
      else (key, value) :: rest

theorem key_mem_place {key : String} {value : alpha} {entries : List (String × alpha)}
    {other : String} (h : other ∈ (place key value entries).map (·.1)) :
    other = key ∨ other ∈ entries.map (·.1) := by
  induction entries with
  | nil =>
      simpa [place] using h
  | cons entry rest ih =>
      unfold place at h
      split at h
      · simpa using h
      · split at h
        · rw [List.map_cons, List.mem_cons] at h
          cases h with
          | inl heq =>
              exact Or.inr (by simp [heq])
          | inr hrest =>
              cases ih hrest with
              | inl hkey => exact Or.inl hkey
              | inr hmem => exact Or.inr (List.mem_cons_of_mem _ hmem)
        · rw [List.map_cons, List.mem_cons] at h
          cases h with
          | inl heq => exact Or.inl heq
          | inr hrest => exact Or.inr (List.mem_cons_of_mem _ hrest)

theorem place_ascending (key : String) (value : alpha) {entries : List (String × alpha)}
    (h : (entries.map (·.1)).Pairwise (· < ·)) :
    ((place key value entries).map (·.1)).Pairwise (· < ·) := by
  induction entries with
  | nil =>
      simp [place]
  | cons entry rest ih =>
      rw [List.map_cons, List.pairwise_cons] at h
      unfold place
      split
      · rename_i hlt
        rw [List.map_cons, List.pairwise_cons]
        constructor
        · intro other hother
          rw [List.map_cons, List.mem_cons] at hother
          cases hother with
          | inl heq => exact heq ▸ hlt
          | inr hmem => exact String.lt_trans hlt (h.left other hmem)
        · rw [List.map_cons, List.pairwise_cons]
          exact h
      · rename_i hge
        split
        · rename_i hlt
          rw [List.map_cons, List.pairwise_cons]
          constructor
          · intro other hother
            cases key_mem_place hother with
            | inl heq => exact heq ▸ hlt
            | inr hmem => exact h.left other hmem
          · exact ih h.right
        · rename_i hle
          have heq : entry.1 = key :=
            String.le_antisymm (String.not_lt.mp hge) (String.not_lt.mp hle)
          rw [List.map_cons, List.pairwise_cons]
          rw [heq] at h
          exact h

def insert (map : SortedMap alpha) (key : String) (value : alpha) : SortedMap alpha :=
  ⟨place key value map.entries, place_ascending key value map.ascending⟩

def ofList (entries : List (String × alpha)) : SortedMap alpha :=
  entries.foldl (fun map entry => map.insert entry.1 entry.2) empty

/-!
# Laws
-/

@[simp] theorem find?_empty (key : String) : (empty : SortedMap alpha).find? key = none := by
  rfl

theorem find?_place {key : String} {value : alpha} {entries : List (String × alpha)}
    (other : String) :
    ((place key value entries).find? fun entry => entry.1 == other).map (·.2) =
      if key = other then some value
      else (entries.find? fun entry => entry.1 == other).map (·.2) := by
  induction entries with
  | nil => by_cases hkey : key = other <;> simp [place, hkey]
  | cons entry rest ih =>
      unfold place
      split
      · by_cases hkey : key = other <;> simp [hkey]
      · rename_i hge
        split
        · rename_i hlt
          by_cases hentry : entry.1 = other
          · have hkey : key ≠ other := by
              intro heq
              rw [heq, hentry] at hlt
              exact String.lt_irrefl _ hlt
            simp [hentry, hkey]
          · simpa [hentry] using ih
        · rename_i hle
          have heq : entry.1 = key :=
            String.le_antisymm (String.not_lt.mp hge) (String.not_lt.mp hle)
          by_cases hkey : key = other
          · simp [hkey]
          · have hentry : entry.1 ≠ other := fun h => hkey (heq.symm.trans h)
            simp [hkey, hentry]

theorem find?_insert (map : SortedMap alpha) (key : String) (value : alpha) (other : String) :
    (map.insert key value).find? other = if key = other then some value else map.find? other :=
  find?_place other

theorem eq_of_entries {map other : SortedMap alpha} (h : map.entries = other.entries) :
    map = other := by
  cases map
  cases other
  cases h
  rfl

theorem place_append {key : String} {entries : List (String × alpha)}
    (h : forall other, other ∈ entries.map (·.1) -> other < key) (value : alpha) :
    place key value entries = entries ++ [(key, value)] := by
  induction entries with
  | nil => rfl
  | cons entry rest ih =>
      have hlt : entry.1 < key := h entry.1 List.mem_cons_self
      have hge : ¬ key < entry.1 := fun hgt => String.lt_irrefl _ (String.lt_trans hlt hgt)
      have hrest := ih fun other hother => h other (List.mem_cons_of_mem _ hother)
      simp [place, hge, hlt, hrest]

theorem entries_foldl_insert (map : SortedMap alpha) {entries : List (String × alpha)}
    (h : ((map.entries ++ entries).map (·.1)).Pairwise (· < ·)) :
    (entries.foldl (fun map entry => map.insert entry.1 entry.2) map).entries =
      map.entries ++ entries := by
  induction entries generalizing map with
  | nil => simp
  | cons entry rest ih =>
      have hplace : (map.insert entry.1 entry.2).entries = map.entries ++ [entry] := by
        refine place_append (fun other hother => ?_) entry.2
        rw [List.map_append, List.pairwise_append] at h
        exact h.right.right other hother entry.1 List.mem_cons_self
      rw [List.foldl_cons, ih]
      · rw [hplace, List.append_assoc, List.singleton_append]
      · rw [hplace, List.append_assoc, List.singleton_append]
        exact h

theorem ofList_entries (map : SortedMap alpha) : ofList map.entries = map :=
  eq_of_entries (entries_foldl_insert empty map.ascending)

end SortedMap
end LessonPress

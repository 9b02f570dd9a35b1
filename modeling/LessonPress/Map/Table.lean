/-!
# Tables

## Finite maps whose order does not show

A table is a list of keys with their values.  Insertion removes an older value
of the key, so a table that is built by insertion holds each key once.
-/

namespace LessonPress

structure Table (kappa alpha : Type) where
  entries : List (kappa × alpha)
deriving Inhabited

namespace Table

variable {kappa alpha : Type} [DecidableEq kappa]

def empty : Table kappa alpha :=
  ⟨[]⟩

def find? (table : Table kappa alpha) (key : kappa) : Option alpha :=
  (table.entries.find? fun entry => decide (entry.1 = key)).map (·.2)

def contains (table : Table kappa alpha) (key : kappa) : Bool :=
  (table.find? key).isSome

def erase (table : Table kappa alpha) (key : kappa) : Table kappa alpha :=
  ⟨table.entries.filter fun entry => decide (entry.1 ≠ key)⟩

def insert (table : Table kappa alpha) (key : kappa) (value : alpha) : Table kappa alpha :=
  ⟨(key, value) :: (table.erase key).entries⟩

omit [DecidableEq kappa] in
def size (table : Table kappa alpha) : Nat :=
  table.entries.length

omit [DecidableEq kappa] in
def keys (table : Table kappa alpha) : List kappa :=
  table.entries.map (·.1)

/-!
# Laws
-/

@[simp] theorem find?_empty (key : kappa) :
    (empty : Table kappa alpha).find? key = none := by
  rfl

@[simp] theorem find?_insert_self (table : Table kappa alpha) (key : kappa) (value : alpha) :
    (table.insert key value).find? key = some value := by
  simp [insert, find?]

theorem find?_erase_self (table : Table kappa alpha) (key : kappa) :
    (table.erase key).find? key = none := by
  simp [erase, find?, List.find?_eq_none]

theorem find?_erase_of_ne (table : Table kappa alpha) {key other : kappa}
    (hne : other ≠ key) : (table.erase key).find? other = table.find? other := by
  unfold erase find?
  congr 1
  induction table.entries with
  | nil => rfl
  | cons entry rest ih =>
      by_cases hkey : entry.1 = key
      · have hother : entry.1 ≠ other := by
          intro h
          exact hne (h.symm.trans hkey)
        simpa [hkey, hother, Ne.symm hne] using ih
      · by_cases hother : entry.1 = other
        · simp [hother, hne]
        · simpa [hkey, hother] using ih

theorem find?_insert_of_ne (table : Table kappa alpha) {key other : kappa} (value : alpha)
    (hne : other ≠ key) : (table.insert key value).find? other = table.find? other := by
  rw [← find?_erase_of_ne table hne]
  simp [insert, find?, Ne.symm hne]

theorem find?_of_erase {table : Table kappa alpha} {key other : kappa} {value : alpha}
    (h : (table.erase key).find? other = some value) : table.find? other = some value := by
  by_cases hkey : other = key
  · rw [hkey, find?_erase_self] at h
    cases h
  · rw [find?_erase_of_ne _ hkey] at h
    exact h

theorem find?_insert_cases {table : Table kappa alpha} {key other : kappa} {value found : alpha}
    (h : (table.insert key value).find? other = some found) :
    table.find? other = some found ∨ (other = key ∧ found = value) := by
  by_cases hkey : other = key
  · subst hkey
    rw [find?_insert_self] at h
    exact Or.inr ⟨rfl, (Option.some.inj h).symm⟩
  · rw [find?_insert_of_ne _ _ hkey] at h
    exact Or.inl h

theorem mem_keys_iff {table : Table kappa alpha} {key : kappa} :
    key ∈ table.keys <-> (table.find? key).isSome = true := by
  simp [keys, find?]

theorem nodup_keys_insert {table : Table kappa alpha} (h : table.keys.Nodup) (key : kappa)
    (value : alpha) : (table.insert key value).keys.Nodup := by
  have hothers : (table.erase key).keys.Sublist table.keys := List.filter_sublist.map _
  have hnew : key ∉ (table.erase key).keys := by
    rw [mem_keys_iff, find?_erase_self]
    exact Bool.false_ne_true
  exact List.nodup_cons.mpr ⟨hnew, h.sublist hothers⟩

omit [DecidableEq kappa] in
theorem length_keys (table : Table kappa alpha) : table.keys.length = table.size :=
  List.length_map _

end Table
end LessonPress

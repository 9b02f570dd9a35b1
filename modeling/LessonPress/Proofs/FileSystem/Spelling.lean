import LessonPress.FileSystem.Operations

/-!
# Spellings of a path

## What two spellings of one path have in common

Paths that are the same by their components take the same steps, from the same place.  They
differ in dots and slashes, which can make the way to a file fail but cannot lead elsewhere:
if both spellings can be read, they give the same bytes.
-/

namespace LessonPress
namespace FilePath

def Component.step? : Component -> Option String
  | .root => none
  | .current => none
  | .parent => some ".."
  | .name text => some text

def steps (path : FilePath) : List String :=
  path.components.filterMap Component.step?

theorem componentOf_ne_root (segment : List Char) : componentOf segment ≠ .root := by
  unfold componentOf
  split
  · nofun
  · split <;> nofun

theorem step?_componentOf {segment : List Char} (h : segment ≠ ['.']) :
    (componentOf segment).step? = some (String.ofList segment) := by
  unfold componentOf
  rw [if_neg h]
  split
  · rename_i hparent
    rw [hparent]
    rfl
  · rfl

theorem step?_dot : (componentOf ['.']).step? = none := by
  rfl

theorem root_mem_components_iff (path : FilePath) :
    .root ∈ path.components <-> path.isAbsolute = true := by
  unfold components
  cases hpath : path.isAbsolute with
  | true => simp
  | false =>
      have hnone : forall segments : List (List Char),
          .root ∉ (segments.filter (counts false)).map componentOf := by
        intro segments hmem
        obtain ⟨segment, _, hroot⟩ := List.mem_map.mp hmem
        exact componentOf_ne_root segment hroot
      cases path.segments with
      | nil => simp
      | cons first rest =>
          by_cases hfirst : counts true first = true
          · simp [hfirst, (componentOf_ne_root first).symm, hnone rest]
          · simp [hfirst, hnone rest]

theorem steps_segments (segments : List (List Char)) :
    ((segments.filter (counts false)).map componentOf).filterMap Component.step? =
      ((segments.filter fun segment => !segment.isEmpty).map String.ofList).filter (· ≠ ".") := by
  induction segments with
  | nil => rfl
  | cons segment rest ih =>
      by_cases hempty : segment = []
      · simpa [counts, hempty] using ih
      · by_cases hdot : segment = ['.']
        · simpa [counts, hdot] using ih
        · have hname : String.ofList segment ≠ "." := by
            intro h
            exact hdot (String.ofList_injective h)
          simpa [counts, hempty, hdot, hname, step?_componentOf hdot] using ih

theorem steps_eq (path : FilePath) :
    path.steps = ((path.segments.filter fun segment => !segment.isEmpty).map
      String.ofList).filter (· ≠ ".") := by
  rw [← steps_segments]
  unfold steps components
  cases path.isAbsolute with
  | true => rfl
  | false =>
      cases path.segments with
      | nil => rfl
      | cons first rest =>
          by_cases hempty : first = []
          · simp [counts, hempty]
          · by_cases hdot : first = ['.']
            · simp [counts, hdot, step?_dot]
            · simp [counts, hempty, hdot]

variable {path other : FilePath}

theorem steps_of_same (h : path.same other = true) : path.steps = other.steps := by
  unfold steps
  rw [of_decide_eq_true h]

theorem isAbsolute_of_same (h : path.same other = true) : path.isAbsolute = other.isAbsolute := by
  rw [Bool.eq_iff_iff, ← root_mem_components_iff, ← root_mem_components_iff, of_decide_eq_true h]

theorem extension_of_same (h : path.same other = true) : path.extension = other.extension := by
  unfold extension fileName
  rw [of_decide_eq_true h]

theorem same_refl (path : FilePath) : path.same path = true :=
  decide_eq_true rfl

theorem same_trans {third : FilePath} (h : path.same other = true)
    (hthird : other.same third = true) : path.same third = true := by
  apply decide_eq_true
  rw [of_decide_eq_true h, of_decide_eq_true hthird]

end FilePath

namespace FileSystem

variable {fs : FileSystem}

theorem descend_steps {location place : Location} {names : List String}
    (h : fs.descend location names = .ok place) :
    fs.descend location (names.filter (· ≠ ".")) = .ok place := by
  induction names generalizing location with
  | nil => exact h
  | cons name rest ih =>
      rw [descend] at h
      cases hentry : fs.entryAt location with
      | none =>
          rw [hentry] at h
          cases h
      | some entry =>
          rw [hentry] at h
          cases entry with
          | file data => cases h
          | directory =>
              dsimp only at h
              by_cases hdot : name = "."
              · rw [if_pos hdot] at h
                simpa [hdot] using ih h
              · rw [if_neg hdot] at h
                have hkept : (name :: rest).filter (· ≠ ".") = name :: rest.filter (· ≠ ".") := by
                  simp [hdot]
                rw [hkept, descend, hentry]
                dsimp only
                rw [if_neg hdot]
                by_cases hparent : name = ".."
                · rw [if_pos hparent] at h ⊢
                  exact ih h
                · rw [if_neg hparent] at h ⊢
                  by_cases hlong : nameLimit < name.utf8ByteSize
                  · rw [if_pos hlong] at h
                    cases h
                  · rw [if_neg hlong] at h ⊢
                    exact ih h

theorem descend_of_resolve {path : FilePath} {place : Location} (h : fs.resolve path = .ok place) :
    fs.descend (if path.isAbsolute then [] else fs.workingDirectory) path.steps = .ok place := by
  unfold resolve route at h
  split at h
  · cases h
  · split at h
    · cases h
    · split at h
      · cases h
      · rw [FilePath.steps_eq]
        -- a slash at the end is one more dot on the way
        have htrailing : forall (trailing : Bool) (names : List String),
            (if trailing then names ++ ["."] else names).filter (· ≠ ".") =
              names.filter (· ≠ ".") := by
          intro trailing names
          cases trailing <;> simp
        have hplace := descend_steps h
        rw [htrailing] at hplace
        exact hplace

theorem resolve_of_same {path other : FilePath} (h : path.same other = true)
    {place elsewhere : Location} (hpath : fs.resolve path = .ok place)
    (hother : fs.resolve other = .ok elsewhere) : place = elsewhere := by
  have hplace := descend_of_resolve hpath
  rw [FilePath.steps_of_same h, FilePath.isAbsolute_of_same h, descend_of_resolve hother] at hplace
  exact (Except.ok.inj hplace).symm

theorem lookUp_eq_ok {path : FilePath} {found : Location × Entry}
    (h : fs.lookUp path = .ok found) :
    fs.resolve path = .ok found.1 ∧ fs.entryAt found.1 = some found.2 := by
  unfold lookUp at h
  cases hplace : fs.resolve path with
  | error cause =>
      rw [hplace] at h
      cases h
  | ok place =>
      rw [hplace] at h
      dsimp only [bind, Except.bind] at h
      split at h
      · cases h
      · rename_i entry hentry
        cases h
        exact ⟨rfl, hentry⟩

theorem read_eq_ok {path : FilePath} {bytes : ByteArray} (h : fs.read path = .ok bytes) :
    exists place data, fs.resolve path = .ok place ∧ fs.entryAt place = some (.file data) ∧
      data.bytes = bytes := by
  unfold read at h
  cases hfound : fs.lookUp path with
  | error cause =>
      rw [hfound] at h
      cases h
  | ok found =>
      obtain ⟨hplace, hentry⟩ := lookUp_eq_ok hfound
      rcases found with ⟨place, entry⟩
      rw [hfound] at h
      cases entry with
      | directory => cases h
      | file data => exact ⟨place, data, hplace, hentry, Except.ok.inj h⟩

/-- Two spellings of a path that can both be read give the same bytes. -/
theorem read_of_same {path other : FilePath} (h : path.same other = true)
    {bytes others : ByteArray} (hpath : fs.read path = .ok bytes)
    (hother : fs.read other = .ok others) : bytes = others := by
  obtain ⟨place, data, hplace, hentry, hbytes⟩ := read_eq_ok hpath
  obtain ⟨elsewhere, found, helsewhere, hfound, hothers⟩ := read_eq_ok hother
  rw [resolve_of_same h hplace helsewhere, hfound] at hentry
  cases hentry
  exact hbytes.symm.trans hothers

end FileSystem
end LessonPress

import LessonPress.Embed.Expansion
import LessonPress.Proofs.Cache.Standing
import LessonPress.Proofs.FileSystem.Spelling

/-!
# Tracking embedded files

## From the paths that a document asks for to the files that it is tracked by

Every path is loaded once, and whatever it gives there is one record of it.  The records
come after that of the document itself, and one for the document's own path is left out.
-/

namespace LessonPress

theorem FilePath.same_comm (path other : FilePath) : path.same other = other.same path := by
  unfold FilePath.same
  exact decide_eq_decide.mpr eq_comm

def Distinct (paths : List FilePath) : Prop :=
  paths.Pairwise fun path other => path.same other = false

theorem Distinct.append {paths : List FilePath} (h : Distinct paths) {path : FilePath}
    (hnew : forall other, other ∈ paths -> other.same path = false) :
    Distinct (paths ++ [path]) := by
  unfold Distinct
  rw [List.pairwise_append]
  refine ⟨h, List.pairwise_singleton _ _, ?_⟩
  intro other hother last hlast
  rw [List.mem_singleton.mp hlast]
  exact hnew other hother

theorem Distinct.perm {paths others : List FilePath} (h : Distinct paths)
    (hperm : paths.Perm others) : Distinct others := by
  refine (hperm.pairwise_iff ?_).mp h
  intro path other hdiffers
  rw [FilePath.same_comm]
  exact hdiffers

namespace Directive

theorem distinct_dropRepeated {known : List FilePath} (h : Distinct known)
    (paths : List FilePath) : Distinct (dropRepeated known paths) := by
  induction paths generalizing known with
  | nil => exact h
  | cons path rest ih =>
      unfold dropRepeated
      split
      · exact ih h
      · rename_i hnew
        exact ih (h.append (by simpa using hnew))

theorem distinct_requestedPaths (document : Document) (directory : FilePath) :
    Distinct (requestedPaths document directory) :=
  distinct_dropRepeated .nil _

theorem find?_dropRepeated (known paths : List FilePath) (path : FilePath) :
    ((dropRepeated known paths).find? fun other => other.same path) =
      (known ++ paths).find? fun other => other.same path := by
  induction paths generalizing known with
  | nil => rw [dropRepeated, List.append_nil]
  | cons next rest ih =>
      unfold dropRepeated
      split
      · rename_i hknown
        rw [ih, List.find?_append, List.find?_append]
        obtain ⟨other, hmem, hsame⟩ := List.any_eq_true.mp hknown
        by_cases hnext : next.same path = true
        · have hfound : (known.find? fun other => other.same path).isSome = true := by
            rw [List.find?_isSome]
            exact ⟨other, hmem, FilePath.same_trans hsame hnext⟩
          obtain ⟨first, hfirst⟩ := Option.isSome_iff_exists.mp hfound
          rw [hfirst, Option.some_or, Option.some_or]
        · have hskip : ((next :: rest).find? fun other => other.same path) =
              rest.find? fun other => other.same path := List.find?_cons_of_neg hnext
          rw [hskip]
      · rw [ih, List.append_assoc, List.singleton_append]

end Directive

/-!
# Loading
-/

theorem LoadedFile.tracked_read (fs : FileSystem) (path : FilePath) :
    (read fs path).tracked = TrackedFile.captureOrAbsent fs path := by
  unfold read TrackedFile.captureOrAbsent
  cases TrackedFile.capture fs path with
  | error cause => rfl
  | ok found =>
      dsimp only
      cases String.fromUTF8? found.2 <;> rfl

namespace Sources

variable {fs : FileSystem} {paths : List FilePath}

theorem isSome_find? (sources : Sources) (path : FilePath) :
    (sources.find? path).isSome = (sources.files.map (·.1)).any fun other => other.same path := by
  rw [Bool.eq_iff_iff]
  simp [find?]

theorem files_foldl {sources : Sources} (h : Distinct (sources.files.map (·.1) ++ paths)) :
    (paths.foldl (load fs) sources).files =
      sources.files ++ paths.map fun path => (path, .read fs path) := by
  induction paths generalizing sources with
  | nil => simp
  | cons path rest ih =>
      have hnew : (sources.find? path).isSome = false := by
        rw [isSome_find?, List.any_eq_false]
        intro other hother
        have hdiffers := (List.pairwise_append.mp h).right.right other hother path
          List.mem_cons_self
        rw [hdiffers]
        exact Bool.false_ne_true
      have hload : load fs sources path = ⟨sources.files ++ [(path, .read fs path)]⟩ := by
        unfold load
        rw [hnew]
        rfl
      rw [List.foldl_cons, hload, ih]
      · simp
      · simpa using h

theorem files_preload (h : Distinct paths) :
    (preload fs paths).files = paths.map fun path => (path, .read fs path) := by
  have hempty : Distinct (empty.files.map (·.1) ++ paths) := h
  exact files_foldl hempty

/-- A path gives what it gives under the spelling by which it was asked for first. -/
theorem find?_preload (fs : FileSystem) (h : Distinct paths) (path : FilePath) :
    (preload fs paths).find? path =
      (paths.find? fun other => other.same path).map (LoadedFile.read fs) := by
  unfold find?
  rw [files_preload h, List.find?_map, Option.map_map]
  rfl

theorem perm_tracked (fs : FileSystem) (h : Distinct paths) :
    (preload fs paths).tracked.Perm (paths.map (TrackedFile.captureOrAbsent fs)) := by
  refine (List.mergeSort_perm _ _).trans (List.Perm.of_eq ?_)
  rw [files_preload h, List.map_map]
  apply List.map_congr_left
  intro path _
  exact LoadedFile.tracked_read fs path

theorem paths_tracked (fs : FileSystem) (h : Distinct paths) :
    Distinct ((preload fs paths).tracked.map TrackedFile.path) := by
  have hpaths : TrackedFile.path ∘ TrackedFile.captureOrAbsent fs = id :=
    funext (TrackedFile.path_captureOrAbsent fs)
  have hperm := (perm_tracked fs h).map TrackedFile.path
  rw [List.map_map, hpaths, List.map_id] at hperm
  exact h.perm hperm.symm

end Sources

/-!
# Tracking
-/

namespace Call

theorem mem_addFiles_iff {tracked files : List TrackedFile}
    (h : Distinct (files.map TrackedFile.path)) (file : TrackedFile) :
    file ∈ addFiles tracked files <->
      file ∈ tracked ∨
        file ∈ files ∧ forall other, other ∈ tracked -> other.path.same file.path = false := by
  induction files generalizing tracked with
  | nil => simp [addFiles]
  | cons first rest ih =>
      have hrest : Distinct (rest.map TrackedFile.path) := List.Pairwise.of_cons h
      have hfirst : forall other, other ∈ rest -> first.path.same other.path = false := by
        intro other hother
        exact List.rel_of_pairwise_cons h (List.mem_map_of_mem hother)
      unfold addFiles
      split
      · rename_i hknown
        rcases List.any_eq_true.mp hknown with ⟨known, hmem, hsame⟩
        rw [ih hrest]
        constructor
        · intro hfile
          exact hfile.imp id fun hlater => ⟨List.mem_cons_of_mem _ hlater.left, hlater.right⟩
        · intro hfile
          refine hfile.imp id fun hlater => ⟨?_, hlater.right⟩
          cases List.mem_cons.mp hlater.left with
          | inl heq =>
              rw [← heq, hlater.right known hmem] at hsame
              cases hsame
          | inr hrest => exact hrest
      · rename_i hunknown
        have hnew : forall other, other ∈ tracked -> other.path.same first.path = false := by
          simpa using hunknown
        rw [ih hrest, List.mem_append, List.mem_singleton]
        constructor
        · intro hfile
          rcases hfile with (htracked | rfl) | ⟨hlater, hothers⟩
          · exact Or.inl htracked
          · exact Or.inr ⟨List.mem_cons_self, hnew⟩
          · exact Or.inr ⟨List.mem_cons_of_mem _ hlater,
              fun other hother => hothers other (List.mem_append_left _ hother)⟩
        · intro hfile
          rcases hfile with htracked | ⟨hmem, hothers⟩
          · exact Or.inl (Or.inl htracked)
          · cases List.mem_cons.mp hmem with
            | inl heq => exact Or.inl (Or.inr heq)
            | inr hlater =>
                refine Or.inr ⟨hlater, fun other hother => ?_⟩
                cases List.mem_append.mp hother with
                | inl htracked => exact hothers other htracked
                | inr hlast =>
                    rw [List.mem_singleton.mp hlast]
                    exact hfirst file hlater

/-- The files of a document stand if its own does and no other path that it asks for is a
directory. -/
theorem stands_addFiles {fs : FileSystem} {own : TrackedFile} (hown : own.stands fs = true)
    {paths : List FilePath} (h : Distinct paths) :
    (addFiles [own] (Sources.preload fs paths).tracked).all (TrackedFile.stands fs) = true <->
      forall path, path ∈ paths -> own.path.same path = false -> fs.isDirectory path = false := by
  have hmem : forall file, file ∈ (Sources.preload fs paths).tracked <->
      exists path, path ∈ paths ∧ TrackedFile.captureOrAbsent fs path = file := by
    intro file
    rw [(Sources.perm_tracked fs h).mem_iff, List.mem_map]
  rw [List.all_eq_true]
  constructor
  · intro hall path hpath hother
    have hfile := hall (TrackedFile.captureOrAbsent fs path) <| by
      rw [mem_addFiles_iff (Sources.paths_tracked fs h), hmem]
      refine Or.inr ⟨⟨path, hpath, rfl⟩, fun other hmem => ?_⟩
      rw [List.mem_singleton.mp hmem, TrackedFile.path_captureOrAbsent]
      exact hother
    rw [TrackedFile.stands_captureOrAbsent] at hfile
    simpa using hfile
  · intro hall file hfile
    rw [mem_addFiles_iff (Sources.paths_tracked fs h), hmem] at hfile
    rcases hfile with hfile | ⟨⟨path, hpath, rfl⟩, hother⟩
    · rw [List.mem_singleton.mp hfile]
      exact hown
    · have hdiffers := hother own (List.mem_singleton_self own)
      rw [TrackedFile.path_captureOrAbsent] at hdiffers
      rw [TrackedFile.stands_captureOrAbsent, hall path hpath hdiffers]
      rfl

end Call
end LessonPress

import LessonPress.Proofs.Cache.Course
import LessonPress.Proofs.Cache.Mirror

/-!
# Renewed lists of tracked files

## What a check makes of a list

A check that passes leaves a list where some files have newer fingerprints.  A file that
was missing has no fingerprint to renew.  As long as the check is under way, what it has
looked at and what is left are still the list in memory.
-/

namespace LessonPress

namespace TrackedFile

/-- The record of a file, perhaps under a newer fingerprint.  That of a missing file stays
as it is. -/
structure Renews (file recorded : TrackedFile) : Prop extends Follows file recorded where
  absent : recorded.missing = true -> file = recorded

theorem Renews.refl (file : TrackedFile) : file.Renews file :=
  ⟨.refl file, fun _ => rfl⟩

theorem Renews.trans {file middle recorded : TrackedFile} (h : file.Renews middle)
    (hmiddle : middle.Renews recorded) : file.Renews recorded where
  path := h.path.trans hmiddle.path
  contentHash := h.contentHash.trans hmiddle.contentHash
  missing := h.missing.trans hmiddle.missing
  absent hmissing := (h.absent (hmiddle.missing.trans hmissing)).trans (hmiddle.absent hmissing)

theorem Renews.refresh {file recorded updated : TrackedFile} {current : Fingerprint}
    {found : Except IoError ByteArray} (h : file.Renews recorded)
    (hpath : current.path = file.path) (hmissing : file.missing = false)
    (hupdated : file.refresh current found = some updated) : updated.Renews recorded where
  toFollows := h.toFollows.refresh hpath hmissing hupdated
  absent hrecorded := by
    rw [← h.missing, hmissing] at hrecorded
    cases hrecorded

end TrackedFile

def FilesRenew (files recorded : List TrackedFile) : Prop :=
  List.Forall₂ TrackedFile.Renews files recorded

theorem filesRenew_refl (files : List TrackedFile) : FilesRenew files files :=
  List.forall₂_same.mpr fun file _ => .refl file

theorem FilesRenew.trans {files middle recorded : List TrackedFile} (h : FilesRenew files middle)
    (hmiddle : FilesRenew middle recorded) : FilesRenew files recorded := by
  induction h generalizing recorded with
  | nil => exact hmiddle
  | cons hfile _ ih =>
      cases hmiddle with
      | cons hmiddle hrest => exact .cons (hfile.trans hmiddle) (ih hrest)

def ListsRenew (listed recorded : Option (List TrackedFile)) : Prop :=
  Option.Rel FilesRenew listed recorded

theorem listsRenew_refl (listed : Option (List TrackedFile)) : ListsRenew listed listed := by
  cases listed with
  | none => exact .none
  | some files => exact .some (filesRenew_refl files)

theorem ListsRenew.trans {listed middle recorded : Option (List TrackedFile)}
    (h : ListsRenew listed middle) (hmiddle : ListsRenew middle recorded) :
    ListsRenew listed recorded := by
  cases h with
  | none => exact hmiddle
  | some hfiles =>
      cases hmiddle with
      | some hrecorded => exact .some (hfiles.trans hrecorded)

theorem ListsRenew.eq_none {listed : Option (List TrackedFile)} (h : ListsRenew listed none) :
    listed = none := by
  cases h
  rfl

theorem ListsRenew.recorded_eq_none {recorded : Option (List TrackedFile)}
    (h : ListsRenew none recorded) : recorded = none := by
  cases h
  rfl

/-!
# Checks
-/

def Phase.isChecking {alpha : Type} : Phase alpha -> Bool
  | .scanning _ _ _ _ => true
  | .hashing _ _ _ _ _ => true
  | _ => false

namespace Call

variable {sigma alpha : Type}

def RenewsList (call : Call alpha) (cache : Cache alpha) (files : List TrackedFile) : Prop :=
  exists listed, cache.records.find? call.keyText = some listed ∧ FilesRenew files listed

/-- What the call has looked at and what it has still to look at make up the list in
memory, perhaps renewed. -/
def Checks (call : Call alpha) (cache : Cache alpha) : Prop :=
  match call.phase with
  | .scanning _ checked _ pending => call.RenewsList cache (checked ++ pending)
  | .hashing _ checked file current pending =>
      current.path = file.path ∧ file.missing = false ∧
        call.RenewsList cache (checked ++ file :: pending)
  | _ => True

theorem checks_of_not_checking {call : Call alpha} (h : call.phase.isChecking = false)
    (cache : Cache alpha) : call.Checks cache := by
  unfold Checks
  unfold Phase.isChecking at h
  split <;> rename_i hphase
  · rw [hphase] at h
    cases h
  · rw [hphase] at h
    cases h
  · exact trivial

variable [Disk sigma] {setup : CacheSetup sigma alpha} {now : UInt64} {call : Call alpha}
  {scene : Scene sigma alpha}

theorem step_records_of_checking (hchecking : call.phase.isChecking = true)
    (hpending : forall entry checked, call.phase ≠ .scanning entry checked true []) :
    (call.step setup now scene).2.cache.records = scene.cache.records := by
  cases step_turn setup now call scene with
  | same _ hrecords => exact hrecords
  | dropped _ hphase _ _ _ =>
      rcases hphase with ⟨ticket, value, outcome, hphase⟩
      rw [hphase] at hchecking
      cases hchecking
  | restored _ hphase _ _ =>
      rw [hphase] at hchecking
      cases hchecking
  | refreshed entry checked hphase _ _ => exact absurd hphase (hpending entry checked)

theorem step_checks (hcall : call.Checks scene.cache) :
    (call.step setup now scene).1.Checks (call.step setup now scene).2.cache := by
  have hrecords := @step_records_of_checking _ _ _ setup now call scene
  have hreaches := step_reaches setup now call scene
  unfold Checks RenewsList at hcall ⊢
  rw [keyText_step]
  generalize (call.step setup now scene).1.phase = phase at hreaches ⊢
  cases hreaches with
  | listed hmemory => exact ⟨_, hmemory.right, filesRenew_refl _⟩
  | passed hphase =>
      rw [hphase] at hcall hrecords
      rw [hrecords rfl (by simp)]
      dsimp only
      rw [List.append_assoc]
      exact hcall
  | moved hphase hglance =>
      rw [hphase] at hcall hrecords
      have hmoved := TrackedFile.glance_moved hglance
      rw [hrecords rfl (by simp)]
      exact ⟨Fingerprint.path_of_read hmoved.left, hmoved.right, hcall⟩
  | refreshed hphase hupdated =>
      rw [hphase] at hcall hrecords
      rcases hcall with ⟨hpath, hmissing, listed, hlisted, hfiles⟩
      rw [hrecords rfl (by simp)]
      refine ⟨listed, hlisted, ?_⟩
      rw [List.append_assoc]
      exact forall₂_replace hfiles fun other hrenews => hrenews.refresh hpath hmissing hupdated
  | _ => exact trivial

theorem step_restoring_none (setup : CacheSetup sigma alpha) (now : UInt64)
    {persisted : PersistedEntry alpha}
    (hphase : call.phase = .restoring (.ok (some persisted)))
    (hentry : scene.cache.entries.find? call.keyText = none) :
    (call.step setup now scene).2.cache.entries =
        scene.cache.entries.insert call.keyText persisted.entry ∧
      (call.step setup now scene).2.cache.records =
        scene.cache.records.insert call.keyText persisted.tracked := by
  unfold step
  rw [hphase]
  dsimp only [restore]
  rw [hentry]
  dsimp only
  rw [judge_cache]
  exact ⟨rfl, rfl⟩

theorem step_restoring_some (setup : CacheSetup sigma alpha) (now : UInt64)
    {persisted : PersistedEntry alpha} {entry : CacheEntry alpha}
    (hphase : call.phase = .restoring (.ok (some persisted)))
    (hentry : scene.cache.entries.find? call.keyText = some entry) :
    (call.step setup now scene).2.cache = scene.cache := by
  unfold step
  rw [hphase]
  dsimp only [restore]
  rw [hentry]
  exact judge_cache ..

omit [Disk sigma] in
theorem complete_ok (now : UInt64) (scene : Scene sigma alpha) {ticket : Ticket alpha}
    {primary : Option TrackedFile}
    (hphase : call.phase = .computing ticket primary) (computed : Computed alpha) :
    (call.complete now scene (.ok computed)).2.cache =
      (call.keep now scene.cache primary computed).2 := by
  unfold complete
  rw [hphase]
  rfl

end Call

end LessonPress

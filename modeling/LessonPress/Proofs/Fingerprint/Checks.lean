import LessonPress.Proofs.Cache.Mirror
import LessonPress.Proofs.Cache.Standing

/-!
# What a check changes

## Lists of tracked files before and after a check

A check that fails changes nothing.  One that passes puts current fingerprints in the
place of those that no longer agree, and nothing else.  Since a fingerprint agrees with
itself, the metadata alone settle the next check.
-/

namespace LessonPress

theorem Binary64.sub_self (x : Binary64) : x.sub x = .zero false := by
  have hnumerator : x.neg.signedNumerator = -x.signedNumerator := by
    unfold signedNumerator neg ratio
    cases x.negative <;> simp
  have hratio : x.neg.ratio = x.ratio := rfl
  have hsum : x.signedNumerator * x.neg.ratio.2 + x.neg.signedNumerator * x.ratio.2 = 0 := by
    rw [hnumerator, hratio, Int.neg_mul]
    exact Int.add_right_neg _
  have hsign : (x.negative && x.neg.negative) = false := by
    unfold neg
    cases x.negative <;> rfl
  unfold sub add
  dsimp only
  rw [if_pos hsum, hsign]

theorem Fingerprint.agrees_self (fingerprint : Fingerprint) :
    fingerprint.agrees fingerprint = true := by
  have htolerance : (Binary64.zero false).abs.le tolerance = true := by
    decide +kernel
  unfold agrees
  rw [Binary64.sub_self, htolerance]
  simp

namespace TrackedFile

variable {fs other : FileSystem} {file checked : TrackedFile}

inductive Kept (fs : FileSystem) (file : TrackedFile) : TrackedFile -> Prop where
  | missing (hmissing : file.missing = true) (hgone : (fs.stat file.path).isOk = false) :
      Kept fs file file
  | agreeing {current : Fingerprint} (hmissing : file.missing = false)
      (hcurrent : Fingerprint.read fs file.path = .ok current)
      (hagrees : current.agrees file.fingerprint = true) : Kept fs file file
  | moved {current : Fingerprint} {bytes : ByteArray} (hmissing : file.missing = false)
      (hcurrent : Fingerprint.read fs file.path = .ok current)
      (hmoved : current.agrees file.fingerprint = false)
      (hbytes : fs.read file.path = .ok bytes)
      (hhash : ContentHash.of bytes = file.contentHash) :
      Kept fs file { file with fingerprint := current }

theorem Kept.follows (h : Kept fs file checked) : checked.Follows file := by
  cases h with
  | missing hmissing hgone => exact .refl file
  | agreeing hmissing hcurrent hagrees => exact .refl file
  | moved hmissing hcurrent hmoved hbytes hhash =>
      exact ⟨Fingerprint.path_of_read hcurrent, rfl, rfl⟩

theorem glance_eq_same_iff :
    file.glance (Fingerprint.read fs file.path) = .same <->
      (file.missing = true ∧ (fs.stat file.path).isOk = false) ∨
        (file.missing = false ∧ exists current, Fingerprint.read fs file.path = .ok current ∧
          current.agrees file.fingerprint = true) := by
  rw [← Fingerprint.isOk_read]
  unfold glance
  cases Fingerprint.read fs file.path with
  | error cause => cases file.missing <;> simp [Except.isOk, Except.toBool]
  | ok current =>
      cases file.missing <;> cases hagrees : current.agrees file.fingerprint <;>
        simp [hagrees, Except.isOk, Except.toBool]

theorem Kept.of_same (h : file.probe fs = .same) : Kept fs file file := by
  have hglance : file.glance (Fingerprint.read fs file.path) = .same := by
    unfold probe at h
    cases hglance : file.glance (Fingerprint.read fs file.path) with
    | same => rfl
    | changed =>
        rw [hglance] at h
        cases h
    | moved current =>
        rw [hglance] at h
        dsimp only at h
        split at h <;> cases h
  rcases glance_eq_same_iff.mp hglance with
    ⟨hmissing, hgone⟩ | ⟨hmissing, current, hcurrent, hagrees⟩
  · exact .missing hmissing hgone
  · exact .agreeing hmissing hcurrent hagrees

theorem agrees_of_glance_moved {current : Fingerprint}
    (h : file.glance (Fingerprint.read fs file.path) = .moved current) :
    current.agrees file.fingerprint = false := by
  rcases glance_moved h with ⟨hcurrent, hmissing⟩
  cases hagrees : current.agrees file.fingerprint with
  | false => rfl
  | true =>
      rw [glance_eq_same_iff.mpr (.inr ⟨hmissing, current, hcurrent, hagrees⟩)] at h
      cases h

theorem Kept.of_touched (h : file.probe fs = .touched checked) : Kept fs file checked := by
  unfold probe at h
  cases hglance : file.glance (Fingerprint.read fs file.path) with
  | same =>
      rw [hglance] at h
      cases h
  | changed =>
      rw [hglance] at h
      cases h
  | moved current =>
      rw [hglance] at h
      dsimp only at h
      cases hrefresh : file.refresh current (fs.read file.path) with
      | none =>
          rw [hrefresh] at h
          cases h
      | some updated =>
          rw [hrefresh] at h
          cases h
          rcases glance_moved hglance with ⟨hcurrent, hmissing⟩
          rcases refresh_eq_some hrefresh with ⟨rfl, bytes, hbytes, hhash⟩
          have hmoved := agrees_of_glance_moved hglance
          rw [← hmissing]
          exact .moved hmissing hcurrent hmoved hbytes hhash

/-- After a check it takes no bytes to see that the file is the same, as long as its
metadata stay. -/
theorem Kept.glance (h : Kept fs file checked)
    (hstat : other.stat file.path = fs.stat file.path) :
    checked.glance (Fingerprint.read other checked.path) = .same := by
  have hread : Fingerprint.read other file.path = Fingerprint.read fs file.path := by
    unfold Fingerprint.read
    rw [hstat]
  rw [h.follows.path, hread, ← h.follows.path, glance_eq_same_iff]
  cases h with
  | missing hmissing hgone => exact .inl ⟨hmissing, hgone⟩
  | agreeing hmissing hcurrent hagrees => exact .inr ⟨hmissing, _, hcurrent, hagrees⟩
  | moved hmissing hcurrent hmoved hbytes hhash =>
      have hpath := Fingerprint.path_of_read hcurrent
      refine .inr ⟨hmissing, _, ?_, Fingerprint.agrees_self _⟩
      exact (congrArg (Fingerprint.read fs) hpath).trans hcurrent

theorem probe_of_glance (h : file.glance (Fingerprint.read fs file.path) = .same) :
    file.probe fs = .same := by
  unfold probe
  rw [h]

theorem passes_iff_kept : file.probe fs ≠ .changed <-> exists after, Kept fs file after := by
  constructor
  · intro h
    cases hprobe : file.probe fs with
    | same => exact ⟨file, .of_same hprobe⟩
    | touched updated => exact ⟨updated, .of_touched hprobe⟩
    | changed => exact absurd hprobe h
  · intro h
    rcases h with ⟨after, hkept⟩
    cases hkept with
    | missing hmissing hgone =>
        rw [probe_of_glance (glance_eq_same_iff.mpr (.inl ⟨hmissing, hgone⟩))]
        simp
    | agreeing hmissing hcurrent hagrees =>
        rw [probe_of_glance (glance_eq_same_iff.mpr (.inr ⟨hmissing, _, hcurrent, hagrees⟩))]
        simp
    | moved hmissing hcurrent hmoved hbytes hhash =>
        unfold probe glance refresh
        simp [hcurrent, hmissing, hmoved, hbytes, hhash]

theorem stands_iff : file.stands fs = true <-> file.probe fs ≠ .changed := by
  unfold stands
  cases file.probe fs <;> simp

end TrackedFile

namespace FileRecords

variable {fs other : FileSystem} {files checked : List TrackedFile} {path : FilePath}

def FirstFault (fs : FileSystem) (files : List TrackedFile) (path : FilePath) : Prop :=
  exists passed file rest,
    files = passed ++ file :: rest ∧
      (forall earlier, earlier ∈ passed -> earlier.probe fs ≠ .changed) ∧
        file.probe fs = .changed ∧ file.path = path

theorem firstFault_cons_iff {file : TrackedFile} (hprobe : file.probe fs ≠ .changed) :
    FirstFault fs (file :: files) path <-> FirstFault fs files path := by
  constructor
  · intro h
    rcases h with ⟨passed, faulty, rest, hplace, hpassed, hfails, hpath⟩
    cases passed with
    | nil =>
        cases hplace
        exact absurd hfails hprobe
    | cons first passed =>
        cases hplace
        exact ⟨passed, faulty, rest, rfl, (List.forall_mem_cons.mp hpassed).right, hfails, hpath⟩
  · intro h
    rcases h with ⟨passed, faulty, rest, rfl, hpassed, hfails, hpath⟩
    exact ⟨file :: passed, faulty, rest, rfl, List.forall_mem_cons.mpr ⟨hprobe, hpassed⟩,
      hfails, hpath⟩

theorem firstFault_cons_changed_iff {file : TrackedFile} (hprobe : file.probe fs = .changed) :
    FirstFault fs (file :: files) path <-> file.path = path := by
  constructor
  · intro h
    rcases h with ⟨passed, faulty, rest, hplace, hpassed, _, hpath⟩
    cases passed with
    | nil =>
        cases hplace
        exact hpath
    | cons first passed =>
        cases hplace
        exact absurd hprobe (hpassed file (by simp))
  · intro hpath
    exact ⟨[], file, files, rfl, by simp, hprobe, hpath⟩

theorem not_firstFault_nil : ¬ FirstFault fs [] path := by
  intro h
  rcases h with ⟨passed, file, rest, hplace, _⟩
  simp at hplace

theorem checkList_eq_error_iff :
    checkList fs files = .error path <-> FirstFault fs files path := by
  induction files with
  | nil => simp [checkList, not_firstFault_nil]
  | cons file rest ih =>
      unfold checkList
      cases hprobe : file.probe fs with
      | changed => simp [firstFault_cons_changed_iff hprobe]
      | same =>
          rw [firstFault_cons_iff (by simp [hprobe]), ← ih]
          cases checkList fs rest <;> simp
      | touched updated =>
          rw [firstFault_cons_iff (by simp [hprobe]), ← ih]
          cases checkList fs rest <;> simp

theorem isOk_checkList_iff :
    (checkList fs files).isOk = true <-> forall file, file ∈ files -> file.probe fs ≠ .changed := by
  rw [isOk_checkList, List.all_eq_true]
  exact forall_congr' fun file => imp_congr_right fun _ => TrackedFile.stands_iff

theorem checkList_kept {moved : Bool} (h : checkList fs files = .ok (checked, moved)) :
    List.Forall₂ (TrackedFile.Kept fs) files checked := by
  induction files generalizing checked moved with
  | nil =>
      cases h
      exact .nil
  | cons file rest ih =>
      rcases checkList_cons_ok h with
        ⟨first, others, marked, rfl, hrest, ⟨hprobe, rfl, _⟩ | ⟨hprobe, _⟩⟩
      · exact .cons (.of_same hprobe) (ih hrest)
      · exact .cons (.of_touched hprobe) (ih hrest)

theorem checkList_of_glances
    (h : forall file, file ∈ files ->
      file.glance (Fingerprint.read fs file.path) = .same) :
    checkList fs files = .ok (files, false) := by
  induction files with
  | nil => rfl
  | cons file rest ih =>
      rcases List.forall_mem_cons.mp h with ⟨hfile, hrest⟩
      unfold checkList
      rw [TrackedFile.probe_of_glance hfile, ih hrest]

/-!
# Checks of the records
-/

structure Passed (fs : FileSystem) (files checked : List TrackedFile) : Prop where
  kept : List.Forall₂ (TrackedFile.Kept fs) files checked
  paths : checked.map TrackedFile.path = files.map TrackedFile.path
  hashes : checked.map TrackedFile.contentHash = files.map TrackedFile.contentHash
  marks : checked.map TrackedFile.missing = files.map TrackedFile.missing
  /-- No file goes on to be hashed. -/
  glances : forall file, file ∈ checked ->
    file.glance (Fingerprint.read fs file.path) = .same

structure Effect (records : FileRecords) (fs : FileSystem) (key : String)
    (files : List TrackedFile) : Prop where
  fresh : (records.check fs key).1 = .fresh <->
    forall file, file ∈ files -> file.probe fs ≠ .changed
  stale : forall path, (records.check fs key).1 = .stale path <-> FirstFault fs files path
  untouched : (records.check fs key).1 ≠ .fresh -> (records.check fs key).2 = records
  renewed : (records.check fs key).1 = .fresh ->
    exists checked, (records.check fs key).2.find? key = some checked ∧ Passed fs files checked
  others : forall other, other ≠ key ->
    (records.check fs key).2.find? other = records.find? other
  /-- The second check reads nothing but metadata, so it may as well meet other bytes. -/
  again : (records.check fs key).1 = .fresh ->
    forall later, (forall file, file ∈ files -> later.stat file.path = fs.stat file.path) ->
      (records.check fs key).2.check later key = (.fresh, (records.check fs key).2)

theorem map_kept {part : Type} {get : TrackedFile -> part}
    (hget : forall file after, TrackedFile.Kept fs file after -> get file = get after)
    (h : List.Forall₂ (TrackedFile.Kept fs) files checked) :
    checked.map get = files.map get := by
  have hparts : List.Forall₂ (· = ·) (files.map get) (checked.map get) :=
    List.rel_map hget h
  rw [List.forall₂_eq_eq_eq] at hparts
  exact hparts.symm

theorem glances_of_kept (h : List.Forall₂ (TrackedFile.Kept fs) files checked)
    (hstat : forall file, file ∈ files -> other.stat file.path = fs.stat file.path) :
    forall file, file ∈ checked ->
      file.glance (Fingerprint.read other file.path) = .same := by
  induction h with
  | nil =>
      intro file hfile
      cases hfile
  | cons hkept hrest ih =>
      rcases List.forall_mem_cons.mp hstat with ⟨hfirst, hothers⟩
      exact List.forall_mem_cons.mpr ⟨hkept.glance hfirst, ih hothers⟩

theorem Passed.of_kept (h : List.Forall₂ (TrackedFile.Kept fs) files checked) :
    Passed fs files checked where
  kept := h
  paths := map_kept (fun _ _ hkept => hkept.follows.path.symm) h
  hashes := map_kept (fun _ _ hkept => hkept.follows.contentHash.symm) h
  marks := map_kept (fun _ _ hkept => hkept.follows.missing.symm) h
  glances := glances_of_kept h fun _ _ => rfl

section Keys

variable {records : FileRecords} {key : String}

theorem check_of_error (hfiles : records.find? key = some files)
    (h : checkList fs files = .error path) :
    records.check fs key = (.stale path, records) := by
  unfold check
  rw [hfiles]
  dsimp only
  rw [h]

theorem check_of_ok {moved : Bool} (hfiles : records.find? key = some files)
    (h : checkList fs files = .ok (checked, moved)) :
    records.check fs key =
      (.fresh, if moved then records.insert key checked else records) := by
  unfold check
  rw [hfiles]
  dsimp only
  rw [h]

theorem check_fresh_iff (fs : FileSystem) (hfiles : records.find? key = some files) :
    (records.check fs key).1 = .fresh <->
      forall file, file ∈ files -> file.probe fs ≠ .changed := by
  rw [← isOk_checkList_iff]
  cases hcheck : checkList fs files with
  | error path => simp [check_of_error hfiles hcheck, Except.isOk, Except.toBool]
  | ok found => simp [check_of_ok hfiles hcheck, Except.isOk, Except.toBool]

theorem find?_check {moved : Bool} (hfiles : records.find? key = some files)
    (h : checkList fs files = .ok (checked, moved)) :
    (records.check fs key).2.find? key = some checked := by
  rw [check_of_ok hfiles h]
  cases moved with
  | true => exact records.find?_insert_self key checked
  | false =>
      rw [(checkList_passed h).right rfl]
      exact hfiles

theorem check_effect (records : FileRecords) (fs : FileSystem) (key : String)
    (files : List TrackedFile) (hfiles : records.find? key = some files) :
    Effect records fs key files := by
  have hfresh := check_fresh_iff fs hfiles
  cases hcheck : checkList fs files with
  | error path =>
      have hresult := check_of_error hfiles hcheck
      constructor
      case fresh => exact hfresh
      case stale =>
        intro other
        simp [hresult, ← checkList_eq_error_iff, hcheck]
      case untouched => simp [hresult]
      case renewed => simp [hresult]
      case others => simp [hresult]
      case again => simp [hresult]
  | ok found =>
      rcases found with ⟨checked, moved⟩
      have hresult := check_of_ok hfiles hcheck
      have hkept := checkList_kept hcheck
      have hfind := find?_check hfiles hcheck
      constructor
      case fresh => exact hfresh
      case stale =>
        intro path
        simp [hresult, ← checkList_eq_error_iff, hcheck]
      case untouched => simp [hresult]
      case renewed =>
        intro _
        exact ⟨checked, hfind, .of_kept hkept⟩
      case others =>
        intro other hother
        rw [hresult]
        cases moved with
        | true => exact records.find?_insert_of_ne checked hother
        | false => rfl
      case again =>
        intro _ later hstat
        exact check_of_ok hfind (checkList_of_glances (glances_of_kept hkept hstat))

theorem check_effect_touched :
    let fs := (FileSystem.new [] ⟨0, 0⟩).put ["a"] (.file ⟨"A".toUTF8, ⟨9, 0⟩⟩)
    let files := [TrackedFile.ofBytes ⟨⟨"a"⟩, 1, (⟨5, 0⟩ : Timestamp).millis⟩ "A".toUTF8,
      .absent ⟨"b"⟩]
    let records : FileRecords := Table.empty.insert "k" files
    records.find? "k" = some files ∧ (records.check fs "k").1 = .fresh ∧
      (records.check fs "k").2.find? "k" ≠ some files ∧ Effect records fs "k" files :=
  ⟨by simp, by decide +kernel, by decide +kernel, check_effect _ _ _ _ (by simp)⟩

end Keys
end FileRecords
end LessonPress

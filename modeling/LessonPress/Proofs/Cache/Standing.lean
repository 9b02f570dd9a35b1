import LessonPress.Proofs.Cache.Decision
import LessonPress.Proofs.Cache.Vouching

/-!
# Records that stand

## Which records pass a check of the files that they were made of

A record of a file that could be read passes, and so does one that a check has renewed.
The record of a missing file passes as long as there is nothing under its path, whether
or not it could be read.
-/

namespace LessonPress

namespace FileSystem

theorem isDirectory_eq (fs : FileSystem) (path : FilePath) :
    fs.isDirectory path = ((fs.stat path).isOk && !(fs.read path).isOk) := by
  unfold isDirectory stat read
  cases fs.lookUp path with
  | error cause => rfl
  | ok found =>
      rcases found with ⟨location, entry⟩
      cases entry <;> rfl

theorem stat_isOk_of_read {fs : FileSystem} {path : FilePath} {bytes : ByteArray}
    (h : fs.read path = .ok bytes) : (fs.stat path).isOk = true := by
  unfold read at h
  unfold stat
  cases hfound : fs.lookUp path with
  | error cause =>
      rw [hfound] at h
      cases h
  | ok found => rfl

end FileSystem

theorem Fingerprint.isOk_read (fs : FileSystem) (path : FilePath) :
    (Fingerprint.read fs path).isOk = (fs.stat path).isOk := by
  unfold Fingerprint.read
  cases fs.stat path <;> rfl

namespace TrackedFile

variable {fs other : FileSystem} {file : TrackedFile}

theorem stands_of_view (h : fs.view file.path = other.view file.path) :
    file.stands fs = file.stands other := by
  have hread : fs.read file.path = other.read file.path := congrArg Prod.snd h
  unfold stands probe
  rw [Fingerprint.read_eq_of_view h, hread]

def Current (fs : FileSystem) (file : TrackedFile) : Prop :=
  file.missing = false ∧ Fingerprint.read fs file.path = .ok file.fingerprint ∧
    exists bytes, fs.read file.path = .ok bytes ∧ ContentHash.of bytes = file.contentHash

/-- The hash settles it should the fingerprint not even agree with itself. -/
theorem Current.stands (h : file.Current fs) : file.stands fs = true := by
  rcases h with ⟨hmissing, hfingerprint, bytes, hbytes, hhash⟩
  rw [stands_eq, hfingerprint, hbytes]
  cases hagrees : file.fingerprint.agrees file.fingerprint with
  | true => simp [glance, hmissing, hagrees]
  | false => simp [glance, refresh, hmissing, hagrees, hhash]

theorem stands_absent (fs : FileSystem) (path : FilePath) :
    (absent path).stands fs = !(fs.stat path).isOk := by
  have hpath : (absent path).path = path := rfl
  rw [stands_eq, ← Fingerprint.isOk_read, hpath]
  cases Fingerprint.read fs path <;> rfl

/-!
# Captured files
-/

theorem capture_eq_ok {path : FilePath} {bytes : ByteArray}
    (h : capture fs path = .ok (file, bytes)) :
    exists fingerprint, Fingerprint.read fs path = .ok fingerprint ∧
      fs.read path = .ok bytes ∧ file = ofBytes fingerprint bytes := by
  unfold capture at h
  cases hfingerprint : Fingerprint.read fs path with
  | error cause =>
      rw [hfingerprint] at h
      cases h
  | ok fingerprint =>
      cases hbytes : fs.read path with
      | error cause =>
          rw [hfingerprint, hbytes] at h
          cases h
      | ok found =>
          rw [hfingerprint, hbytes] at h
          cases h
          exact ⟨fingerprint, rfl, rfl, rfl⟩

theorem path_of_capture {path : FilePath} {bytes : ByteArray}
    (h : capture fs path = .ok (file, bytes)) : file.path = path := by
  rcases capture_eq_ok h with ⟨fingerprint, hfingerprint, _, rfl⟩
  exact Fingerprint.path_of_read hfingerprint

theorem Current.of_capture {path : FilePath} {bytes : ByteArray}
    (h : capture fs path = .ok (file, bytes)) : file.Current fs := by
  have hpath := path_of_capture h
  rcases capture_eq_ok h with ⟨fingerprint, hfingerprint, hbytes, rfl⟩
  refine ⟨rfl, ?_, bytes, ?_, rfl⟩
  · rw [hpath]
    exact hfingerprint
  · rw [hpath]
    exact hbytes

theorem capture_isOk (fs : FileSystem) (path : FilePath) :
    (capture fs path).isOk = (fs.read path).isOk := by
  unfold capture Fingerprint.read
  cases hbytes : fs.read path with
  | error cause => cases fs.stat path <;> rfl
  | ok bytes =>
      have hstat := FileSystem.stat_isOk_of_read hbytes
      cases hfound : fs.stat path with
      | error cause =>
          rw [hfound] at hstat
          cases hstat
      | ok metadata => rfl

theorem path_captureOrAbsent (fs : FileSystem) (path : FilePath) :
    (captureOrAbsent fs path).path = path := by
  unfold captureOrAbsent
  cases hcapture : capture fs path with
  | error cause => rfl
  | ok found => exact path_of_capture hcapture

theorem stands_captureOrAbsent (fs : FileSystem) (path : FilePath) :
    (captureOrAbsent fs path).stands fs = !fs.isDirectory path := by
  have hok := capture_isOk fs path
  unfold captureOrAbsent
  rw [FileSystem.isDirectory_eq, ← hok]
  cases hcapture : capture fs path with
  | error cause => simp [stands_absent, Except.isOk, Except.toBool]
  | ok found => simp [(Current.of_capture hcapture).stands, Except.isOk, Except.toBool]

end TrackedFile

/-!
# Lists that a check has renewed
-/

namespace FileRecords

variable {fs : FileSystem}

theorem probe_touched {file updated : TrackedFile} (h : file.probe fs = .touched updated) :
    updated.Current fs := by
  unfold TrackedFile.probe at h
  cases hglance : file.glance (Fingerprint.read fs file.path) with
  | same =>
      rw [hglance] at h
      cases h
  | changed =>
      rw [hglance] at h
      cases h
  | moved current =>
      rw [hglance] at h
      dsimp only at h
      cases hrefresh : file.refresh current (fs.read file.path) with
      | none =>
          rw [hrefresh] at h
          cases h
      | some renewed =>
          rw [hrefresh] at h
          cases h
          have hcurrent := (TrackedFile.glance_moved hglance).left
          rcases TrackedFile.refresh_eq_some hrefresh with ⟨rfl, bytes, hbytes, hhash⟩
          have hpath : current.path = file.path := Fingerprint.path_of_read hcurrent
          refine ⟨rfl, ?_, bytes, ?_, hhash⟩
          · change Fingerprint.read fs current.path = .ok current
            rw [hpath]
            exact hcurrent
          · change fs.read current.path = .ok bytes
            rw [hpath]
            exact hbytes

theorem checkList_cons_ok {file : TrackedFile} {rest checked : List TrackedFile} {moved : Bool}
    (h : checkList fs (file :: rest) = .ok (checked, moved)) :
    exists first others marked, checked = first :: others ∧
      checkList fs rest = .ok (others, marked) ∧
        ((file.probe fs = .same ∧ first = file ∧ moved = marked) ∨
          (file.probe fs = .touched first ∧ moved = true)) := by
  unfold checkList at h
  cases hprobe : file.probe fs with
  | changed =>
      rw [hprobe] at h
      cases h
  | same =>
      rw [hprobe] at h
      cases hrest : checkList fs rest with
      | error path =>
          rw [hrest] at h
          cases h
      | ok found =>
          rw [hrest] at h
          cases h
          exact ⟨file, found.1, found.2, rfl, rfl, .inl ⟨rfl, rfl, rfl⟩⟩
  | touched updated =>
      rw [hprobe] at h
      cases hrest : checkList fs rest with
      | error path =>
          rw [hrest] at h
          cases h
      | ok found =>
          rw [hrest] at h
          cases h
          exact ⟨updated, found.1, found.2, rfl, rfl, .inr ⟨rfl, rfl⟩⟩

/-- What a check that passes leaves passes the next one.  Without a mark nothing has been
renewed. -/
theorem checkList_passed {files renewed : List TrackedFile} {moved : Bool}
    (h : checkList fs files = .ok (renewed, moved)) :
    (forall file, file ∈ renewed -> file.stands fs = true) ∧
      (moved = false -> renewed = files) := by
  induction files generalizing renewed moved with
  | nil =>
      cases h
      constructor
      · intro file hfile
        cases hfile
      · intro _
        rfl
  | cons file rest ih =>
      rcases checkList_cons_ok h with
        ⟨first, others, marked, rfl, hrest, ⟨hprobe, rfl, rfl⟩ | ⟨hprobe, rfl⟩⟩
      · have hstands : first.stands fs = true := by
          unfold TrackedFile.stands
          rw [hprobe]
        constructor
        · simpa [hstands] using (ih hrest).left
        · intro hmoved
          rw [(ih hrest).right hmoved]
      · constructor
        · simpa [(probe_touched hprobe).stands] using (ih hrest).left
        · intro hmoved
          cases hmoved

end FileRecords
end LessonPress

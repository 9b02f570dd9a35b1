import LessonPress.Fingerprint.Basic
import LessonPress.Hash.ContentHash

/-!
# Tracked files

## The last known state of a file that a value was computed from

A tracked file is re-checked in two steps.  A look at its metadata settles most
cases; when only the fingerprint has moved, the bytes are hashed again and decide.
A file that was missing stays the same as long as it is missing.
-/

namespace LessonPress

structure TrackedFile where
  fingerprint : Fingerprint
  contentHash : ContentHash
  missing : Bool
deriving DecidableEq, Inhabited

namespace TrackedFile

def path (file : TrackedFile) : FilePath :=
  file.fingerprint.path

def ofBytes (fingerprint : Fingerprint) (bytes : ByteArray) : TrackedFile :=
  ⟨fingerprint, .of bytes, false⟩

def absent (path : FilePath) : TrackedFile :=
  ⟨⟨path, 0, .zero false⟩, .of ByteArray.empty, true⟩

/-- The state of a file and its bytes.  The fingerprint is taken before the bytes
are read. -/
def capture (fs : FileSystem) (path : FilePath) :
    Except IoError (TrackedFile × ByteArray) := do
  let fingerprint ← Fingerprint.read fs path
  let bytes ← fs.read path
  .ok (ofBytes fingerprint bytes, bytes)

def captureOrAbsent (fs : FileSystem) (path : FilePath) : TrackedFile :=
  match capture fs path with
  | .ok (file, _) => file
  | .error _ => absent path

/-!
# Re-checking
-/

inductive Glance where
  | same
  | moved (current : Fingerprint)
  | changed

def glance (file : TrackedFile) (found : Except IoError Fingerprint) : Glance :=
  match found with
  | .error _ => if file.missing then .same else .changed
  | .ok current =>
      if file.missing then .changed
      else if current.agrees file.fingerprint then .same
      else .moved current

theorem glance_same {file : TrackedFile} {found : Except IoError Fingerprint}
    (h : file.glance found = .same) (hmissing : file.missing = false) :
    exists current, found = .ok current ∧ current.agrees file.fingerprint = true := by
  unfold glance at h
  cases found with
  | error cause =>
      rw [hmissing] at h
      cases h
  | ok current =>
      rw [hmissing] at h
      dsimp only at h
      split at h
      · rename_i hfalse
        cases hfalse
      · split at h
        · rename_i hagrees
          exact ⟨current, rfl, hagrees⟩
        · cases h

theorem glance_moved {file : TrackedFile} {found : Except IoError Fingerprint}
    {current : Fingerprint} (h : file.glance found = .moved current) :
    found = .ok current ∧ file.missing = false := by
  unfold glance at h
  cases found with
  | error cause =>
      dsimp only at h
      split at h <;> cases h
  | ok fingerprint =>
      dsimp only at h
      split at h
      · cases h
      · rename_i hmissing
        split at h
        · cases h
        · cases h
          exact ⟨rfl, by simpa using hmissing⟩

def refresh (file : TrackedFile) (current : Fingerprint)
    (found : Except IoError ByteArray) : Option TrackedFile :=
  match found with
  | .error _ => none
  | .ok bytes =>
      if ContentHash.of bytes = file.contentHash then
        some ⟨current, file.contentHash, false⟩
      else
        none

theorem refresh_eq_some {file updated : TrackedFile} {current : Fingerprint}
    {found : Except IoError ByteArray} (h : file.refresh current found = some updated) :
    updated = ⟨current, file.contentHash, false⟩ ∧
      exists bytes, found = .ok bytes ∧ ContentHash.of bytes = file.contentHash := by
  unfold refresh at h
  cases found with
  | error cause => cases h
  | ok bytes =>
      dsimp only at h
      split at h
      · rename_i hhash
        exact ⟨(Option.some.inj h).symm, bytes, rfl, hhash⟩
      · cases h

inductive Probe where
  | same
  | touched (updated : TrackedFile)
  | changed

def probe (fs : FileSystem) (file : TrackedFile) : Probe :=
  match file.glance (Fingerprint.read fs file.path) with
  | .same => .same
  | .changed => .changed
  | .moved current =>
      match file.refresh current (fs.read file.path) with
      | some updated => .touched updated
      | none => .changed

/-!
# Encoding

The mark of a missing file is written only where it is set.
-/

def toJson (file : TrackedFile) : Json :=
  .object
    ([("fingerprint", file.fingerprint.toJson),
      ("contentHash", .string file.contentHash.hex)] ++
      if file.missing then [("missing", .bool true)] else [])

def fieldRules : List Json.FieldRule :=
  [{ name := "fingerprint" }, { name := "contentHash" }, { name := "missing", mayEnd := true }]

def ofJson? (value : Json) : Option TrackedFile :=
  match Json.record fieldRules value with
  | some [fingerprint, contentHash, missing] => do
      let fingerprint ← Json.required Fingerprint.ofJson? fingerprint
      let contentHash ← Json.required Json.asString contentHash
      let missing ← Json.defaulted false Json.asBool missing
      some ⟨fingerprint, ⟨contentHash⟩, missing⟩
  | _ => none

end TrackedFile
end LessonPress

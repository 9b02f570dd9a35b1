import LessonPress.Binary64.Decimal
import LessonPress.FileSystem.Operations
import LessonPress.Json.Shape

/-!
# Fingerprints of files

## Size and modification time as a stand-in for the content

Times are milliseconds since 1970 in binary floating point; a time before 1970
counts as zero.  Two fingerprints agree when the sizes are equal and the times
lie within a thousandth of a millisecond.
-/

namespace LessonPress

namespace Timestamp

def billion : Binary64 :=
  .ofNat 1000000000

def thousand : Binary64 :=
  .ofNat 1000

/-- The seconds and their fraction are added before the sum is scaled. -/
def millis (time : Timestamp) : Binary64 :=
  match time.seconds with
  | .ofNat seconds =>
      ((Binary64.ofNat seconds).add ((Binary64.ofNat time.nanos).div billion)).mul thousand
  | .negSucc _ => .zero false

end Timestamp

structure Fingerprint where
  path : FilePath
  size : Nat
  modified : Binary64
deriving DecidableEq, Inhabited

namespace Fingerprint

def ofMetadata (path : FilePath) (metadata : FileSystem.Metadata) : Fingerprint :=
  ⟨path, metadata.size, metadata.modified.millis⟩

def read (fs : FileSystem) (path : FilePath) : Except IoError Fingerprint := do
  let metadata ← fs.stat path
  .ok (ofMetadata path metadata)

theorem path_of_read {fs : FileSystem} {path : FilePath} {fingerprint : Fingerprint}
    (h : Fingerprint.read fs path = .ok fingerprint) : fingerprint.path = path := by
  unfold Fingerprint.read at h
  cases hstat : fs.stat path with
  | error cause =>
      rw [hstat] at h
      cases h
  | ok metadata =>
      rw [hstat] at h
      cases h
      rfl

/-- The largest difference of times that is taken for none, in milliseconds. -/
def tolerance : Binary64 :=
  (Binary64.ofNat 1).div (.ofNat 1000)

def agrees (current recorded : Fingerprint) : Bool :=
  current.size == recorded.size &&
    (current.modified.sub recorded.modified).abs.le tolerance

/-- Equality of all parts: paths by components, times by value. -/
def same (a b : Fingerprint) : Bool :=
  a.path.same b.path && a.size == b.size && a.modified.sameValue b.modified

/-!
# Encoding
-/

def toJson (fingerprint : Fingerprint) : Json :=
  .object
    [("path", .string fingerprint.path.text),
      ("sizeBytes", .nat fingerprint.size),
      ("modifiedTimeMillis", .float fingerprint.modified)]

def fieldRules : List Json.FieldRule :=
  [{ name := "path" }, { name := "sizeBytes" }, { name := "modifiedTimeMillis" }]

def ofJson? (value : Json) : Option Fingerprint :=
  match Json.record fieldRules value with
  | some [path, size, modified] => do
      let path ← Json.required Json.asString path
      let size ← Json.required Json.asWord size
      let modified ← Json.required Json.asFloat modified
      some ⟨⟨path⟩, size, modified⟩
  | _ => none

end Fingerprint
end LessonPress

import LessonPress.Fingerprint.Tracked
import LessonPress.Map.Table

/-!
# Records of tracked files

## The files that stand behind each key

A check goes through the files of a key in order and stops at the first one that
has changed.  Files whose fingerprints moved without a change of content are
recorded under their new fingerprints, but only when the whole check passes.
-/

namespace LessonPress

abbrev FileRecords := Table String (List TrackedFile)

inductive Freshness where
  | fresh
  | untracked
  | stale (path : FilePath)
deriving DecidableEq

namespace FileRecords

/-- How the files of a list stand after a check: under their current fingerprints,
with a mark if any of them moved, or the path of the first changed file. -/
def checkList (fs : FileSystem) : List TrackedFile -> Except FilePath (List TrackedFile × Bool)
  | [] => .ok ([], false)
  | file :: rest =>
      match file.probe fs with
      | .changed => .error file.path
      | .same =>
          match checkList fs rest with
          | .error path => .error path
          | .ok (checked, touched) => .ok (file :: checked, touched)
      | .touched updated =>
          match checkList fs rest with
          | .error path => .error path
          | .ok (checked, _) => .ok (updated :: checked, true)

def check (records : FileRecords) (fs : FileSystem) (key : String) :
    Freshness × FileRecords :=
  match records.find? key with
  | none => (.untracked, records)
  | some tracked =>
      match checkList fs tracked with
      | .error path => (.stale path, records)
      | .ok (checked, touched) =>
          (.fresh, if touched then records.insert key checked else records)

end FileRecords
end LessonPress

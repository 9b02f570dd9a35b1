import LessonPress.Fingerprint.Tracked
import LessonPress.Text.Lines

/-!
# Source files

## The files that a document embeds, read once

All files are read before any directive is looked at.  A file is kept under the
path by which it was asked for first; another spelling of the same path finds it
too.  A file that cannot be read is kept with the reason.
-/

namespace LessonPress

/-- A file's text, with line feeds alone at the ends of its lines. -/
structure SourceText where
  path : FilePath
  text : List Char
  tracked : TrackedFile
deriving DecidableEq, Inhabited

namespace SourceText

def lines (source : SourceText) : List (List Char) :=
  Text.lines source.text

def lineCount (source : SourceText) : Nat :=
  source.lines.length

end SourceText

inductive LoadedFile where
  | text (source : SourceText)
  | failed (reason : String) (tracked : TrackedFile)
deriving DecidableEq, Inhabited

namespace LoadedFile

def tracked : LoadedFile -> TrackedFile
  | text source => source.tracked
  | failed _ tracked => tracked

def read (fs : FileSystem) (path : FilePath) : LoadedFile :=
  match TrackedFile.capture fs path with
  | .error cause => .failed cause.message (.absent path)
  | .ok (tracked, bytes) =>
      match String.fromUTF8? bytes with
      | none => .failed "file is not valid UTF-8" tracked
      | some content => .text ⟨path, Text.normalizeNewlines content.toList, tracked⟩

end LoadedFile

structure Sources where
  files : List (FilePath × LoadedFile)
deriving Inhabited

namespace Sources

def empty : Sources :=
  ⟨[]⟩

def find? (sources : Sources) (path : FilePath) : Option LoadedFile :=
  (sources.files.find? fun file => file.1.same path).map (·.2)

def load (fs : FileSystem) (sources : Sources) (path : FilePath) : Sources :=
  if (sources.find? path).isSome then sources
  else ⟨sources.files ++ [(path, .read fs path)]⟩

def preload (fs : FileSystem) (paths : List FilePath) : Sources :=
  paths.foldl (load fs) empty

def get (sources : Sources) (path : FilePath) : Except String SourceText :=
  match sources.find? path with
  | some (.text source) => .ok source
  | some (.failed reason _) => .error reason
  | none => .error "file was not loaded"

def tracked (sources : Sources) : List TrackedFile :=
  (sources.files.map fun file => file.2.tracked).mergeSort fun a b => a.path.le b.path

def size (sources : Sources) : Nat :=
  sources.files.length

end Sources
end LessonPress

import LessonPress.Error
import LessonPress.FileSystem.Operations
import LessonPress.Hash.ContentHash

/-!
# Cache keys

## The identity of a cached file

A plain key names a file by its path alone.  A strict key adds the hash of the
content that the file had when the key was made.
-/

namespace LessonPress

structure CacheKey where
  path : FilePath
  contentHash : Option ContentHash
deriving DecidableEq, Inhabited

namespace CacheKey

def file (path : FilePath) : CacheKey :=
  ⟨path, none⟩

def strict (fs : FileSystem) (path : FilePath) : Except Error CacheKey :=
  match fs.read path with
  | .error cause => .error (.read path cause.message)
  | .ok bytes => .ok ⟨path, some (.of bytes)⟩

def text (key : CacheKey) : String :=
  match key.contentHash with
  | none => "file:" ++ key.path.text
  | some hash => "file:" ++ key.path.text ++ ":" ++ hash.hex

end CacheKey
end LessonPress

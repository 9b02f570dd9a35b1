import LessonPress.Path.Basic

/-!
# Errors

## Why a value could not be had

An error carries the text of its cause, so that one failed computation can be
reported to every caller that waits for it.
-/

namespace LessonPress

inductive Error where
  | read (path : FilePath) (cause : String)
  | parse (path : FilePath) (cause : String)
  | cacheIo (path : FilePath) (cause : String)
  | serialization (cause : String)
  | task (cause : String)
deriving DecidableEq, Inhabited

namespace Error

def message : Error -> String
  | read path cause => "failed to read " ++ path.text ++ ": " ++ cause
  | parse path cause => "parse error in " ++ path.text ++ ": " ++ cause
  | cacheIo path cause => "cache I/O error at " ++ path.text ++ ": " ++ cause
  | serialization cause => "serialization error: " ++ cause
  | task cause => "task failed: " ++ cause

end Error
end LessonPress

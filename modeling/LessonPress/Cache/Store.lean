import LessonPress.Cache.Entry
import LessonPress.Error

/-!
# Stores

## What stands behind a cache and outlives it

A store is three operations on the state of a disk, and each of them may fail.
The cache looks at files on the same disk.
-/

namespace LessonPress

class Disk (sigma : Type) where
  files : sigma -> FileSystem
  withFiles : sigma -> FileSystem -> sigma

instance : Disk FileSystem where
  files fs := fs
  withFiles _ fs := fs

structure Store (sigma alpha : Type) where
  load : String -> sigma -> Except Error (Option (PersistedEntry alpha)) × sigma
  save : PersistedEntry alpha -> sigma -> Except Error Unit × sigma
  remove : String -> sigma -> Except Error Unit × sigma

end LessonPress

import LessonPress.Path.Basic

/-!
# Cache events

## Every decision that a cache makes, as an observer sees it
-/

namespace LessonPress

inductive MissReason where
  | forceFresh
  | notCached
  | expired
  | untracked
  | changed (path : FilePath)
deriving DecidableEq, Inhabited

inductive CacheEvent where
  | hit
  | trustedHit
  | miss (reason : MissReason)
  | joined
  | computed
  | computeFailed (message : String)
  | servedStale
  | stored (created : UInt64)
  | superseded (successor : String)
  | restored
  | loadFailed (message : String)
  | persistFailed (message : String)
deriving DecidableEq, Inhabited

end LessonPress

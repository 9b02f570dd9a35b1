import LessonPress.Cache.Event
import LessonPress.Cache.Key
import LessonPress.Cache.Store
import LessonPress.Fingerprint.Records

/-!
# Caches

## Entries, the files behind them, and computations under way

A cache keeps its entries by the text of their keys, the tracked files of each
entry, and for every file the key under which it was stored last.  A computation
under way is a flight.  A key has at most one flight that can be joined, and the
result of a flight stays available to the calls that joined it.
-/

namespace LessonPress

structure Cache (alpha : Type) where
  entries : Table String (CacheEntry alpha)
  records : FileRecords
  currentKeys : Table (List FilePath.Component) String
  flights : Table String Nat
  results : Table Nat (Except Error alpha)
  nextFlight : Nat

/-- How a cache is set up: in trust mode it serves any entry without looking at
its age and its files. -/
structure CacheSetup (sigma alpha : Type) where
  trust : Bool
  store : Option (Store sigma alpha)

structure Scene (sigma alpha : Type) where
  cache : Cache alpha
  disk : sigma
  events : List (String × CacheEvent)

namespace Cache

variable {alpha : Type}

def empty : Cache alpha :=
  ⟨.empty, .empty, .empty, .empty, .empty, 0⟩

instance : Inhabited (Cache alpha) :=
  ⟨empty⟩

def peek (cache : Cache alpha) (key : CacheKey) : Option (CacheEntry alpha) :=
  cache.entries.find? key.text

def size (cache : Cache alpha) : Nat :=
  cache.entries.size

def clear (cache : Cache alpha) : Cache alpha :=
  { cache with entries := .empty, records := .empty, currentKeys := .empty }

def forget (cache : Cache alpha) (key : String) : Cache alpha :=
  { cache with entries := cache.entries.erase key, records := cache.records.erase key }

/-- Forgets that a key is the current one of its file. -/
def retire (cache : Cache alpha) (key : CacheKey) : Cache alpha :=
  if cache.currentKeys.find? key.path.components = some key.text then
    { cache with currentKeys := cache.currentKeys.erase key.path.components }
  else
    cache

end Cache

namespace Scene

variable {sigma alpha : Type}

def emit (scene : Scene sigma alpha) (key : String) (event : CacheEvent) : Scene sigma alpha :=
  { scene with events := scene.events ++ [(key, event)] }

def emitFailure (scene : Scene sigma alpha) (key : String) (outcome : Except Error Unit) :
    Scene sigma alpha :=
  match outcome with
  | .ok () => scene
  | .error cause => scene.emit key (.persistFailed cause.message)

def removeStored (setup : CacheSetup sigma alpha) (scene : Scene sigma alpha) (key : String) :
    Except Error Unit × Scene sigma alpha :=
  match setup.store with
  | none => (.ok (), scene)
  | some store =>
      let (outcome, disk) := store.remove key scene.disk
      (outcome, { scene with disk := disk })

def invalidate (setup : CacheSetup sigma alpha) (scene : Scene sigma alpha) (key : CacheKey) :
    Scene sigma alpha :=
  let scene := { scene with cache := (scene.cache.retire key).forget key.text }
  let (outcome, scene) := scene.removeStored setup key.text
  scene.emitFailure key.text outcome

end Scene
end LessonPress

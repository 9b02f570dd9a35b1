import LessonPress.Cache.Store
import LessonPress.FileSystem.Operations
import LessonPress.Hash.ContentHash
import LessonPress.Json.Printer
import LessonPress.Json.Reader

/-!
# Stores of JSON files

## One file for each key

The file of a key is named by the hash of the key's text.  A new text is first
written beside the file and then moved over it, so that a failure on the way
leaves the old text in place.  Every operation on files can be made to fail.
-/

namespace LessonPress

structure Codec (alpha : Type) where
  encode : alpha -> Json
  decode : Json -> Option alpha

namespace Codec

def string : Codec String :=
  ⟨.string, Json.asString⟩

end Codec

structure JsonStore (alpha : Type) where
  directory : FilePath
  codec : Codec alpha

/-- Operations on files that are made to fail, each with its message, although nothing
is in their way.  When the directory cannot be created, the parents below a certain one
may be missing as well; a failed writing may leave the beginning of the text. -/
structure Faults where
  directory : Option (String × Nat) := none
  create : Option String := none
  write : Option (String × Nat) := none
  move : Option String := none
  read : Option String := none
  remove : Option String := none

namespace JsonStore

variable {alpha : Type}

def fileName (key : String) : FilePath :=
  ⟨(ContentHash.ofString key).hex ++ ".json"⟩

def entryPath (store : JsonStore alpha) (key : String) : FilePath :=
  store.directory.join (fileName key)

def draftPath (store : JsonStore alpha) (key : String) : FilePath :=
  (store.entryPath key).withExtension "tmp"

def malformed : Error :=
  .serialization "malformed entry"

def ioFailure (path : FilePath) (cause : IoError) : Error :=
  .cacheIo path cause.message

def readEntry (store : JsonStore alpha) (bytes : ByteArray) : Option (PersistedEntry alpha) := do
  let text ← String.fromUTF8? bytes
  let value ← Json.ofText? text
  PersistedEntry.ofJson? store.codec.decode value

def entryText (store : JsonStore alpha) (persisted : PersistedEntry alpha) : String :=
  (persisted.toJson store.codec.encode).toText

/-- What was stored under a key.  An entry of another key does not count. -/
def load (store : JsonStore alpha) (faults : Faults) (fs : FileSystem) (key : String) :
    Except Error (Option (PersistedEntry alpha)) :=
  let path := store.entryPath key
  match faults.read with
  | some message => .error (.cacheIo path message)
  | none =>
      match fs.read path with
      | .error .notFound => .ok none
      | .error cause => .error (ioFailure path cause)
      | .ok bytes =>
          match store.readEntry bytes with
          | none => .error malformed
          | some persisted => if persisted.key = key then .ok (some persisted) else .ok none

def writeDraft (store : JsonStore alpha) (faults : Faults) (fs : FileSystem) (key : String)
    (bytes : ByteArray) : Option Error × FileSystem :=
  let draft := store.draftPath key
  match faults.create with
  | some message => (some (.cacheIo draft message), fs)
  | none =>
      match faults.write with
      | some (message, count) =>
          match fs.write draft (bytes.extract 0 count) with
          | .error cause => (some (ioFailure draft cause), fs)
          | .ok torn => (some (.cacheIo draft message), torn)
      | none =>
          match fs.write draft bytes with
          | .error cause => (some (ioFailure draft cause), fs)
          | .ok written => (none, written)

def publish (store : JsonStore alpha) (faults : Faults) (fs : FileSystem) (key : String) :
    Except Error Unit × FileSystem :=
  let path := store.entryPath key
  match faults.move with
  | some message => (.error (.cacheIo path message), fs)
  | none =>
      match fs.rename (store.draftPath key) path with
      | .error cause => (.error (ioFailure path cause), fs)
      | .ok moved => (.ok (), moved)

def prepare (store : JsonStore alpha) (faults : Faults) (fs : FileSystem) :
    Option Error × FileSystem :=
  match faults.directory with
  | some (message, count) =>
      let part :=
        match store.directory.ancestors[count]? with
        | none => fs
        | some parent => (fs.makeDirectories parent).1
      (some (.cacheIo store.directory message), part)
  | none =>
      match fs.makeDirectories store.directory with
      | (part, some cause) => (some (ioFailure store.directory cause), part)
      | (ready, none) => (none, ready)

def save (store : JsonStore alpha) (faults : Faults) (fs : FileSystem)
    (persisted : PersistedEntry alpha) : Except Error Unit × FileSystem :=
  match store.prepare faults fs with
  | (some failure, fs) => (.error failure, fs)
  | (none, fs) =>
      match store.writeDraft faults fs persisted.key (store.entryText persisted).toUTF8 with
      | (some failure, fs) => (.error failure, fs)
      | (none, fs) => store.publish faults fs persisted.key

def remove (store : JsonStore alpha) (faults : Faults) (fs : FileSystem) (key : String) :
    Except Error Unit × FileSystem :=
  let path := store.entryPath key
  match faults.remove with
  | some message => (.error (.cacheIo path message), fs)
  | none =>
      match fs.removeFile path with
      | .ok removed => (.ok (), removed)
      | .error .notFound => (.ok (), fs)
      | .error cause => (.error (ioFailure path cause), fs)

def toStore {sigma : Type} [Disk sigma] (store : JsonStore alpha) : Store sigma alpha where
  load key disk := (store.load {} (Disk.files disk) key, disk)
  save persisted disk :=
    let (outcome, fs) := store.save {} (Disk.files disk) persisted
    (outcome, Disk.withFiles disk fs)
  remove key disk :=
    let (outcome, fs) := store.remove {} (Disk.files disk) key
    (outcome, Disk.withFiles disk fs)

end JsonStore
end LessonPress

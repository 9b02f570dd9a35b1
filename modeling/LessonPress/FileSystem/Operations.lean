import LessonPress.FileSystem.Basic

/-!
# Operations on files

## Reading, writing and arranging files and directories

An operation that fails gives the cause and leaves everything as it was; else it
gives the changed file system.
-/

namespace LessonPress
namespace FileSystem

/-!
# Looking
-/

structure Metadata where
  size : Nat
  modified : Timestamp

def directorySize : Nat := 4096

def metadataOf (fs : FileSystem) : Entry -> Metadata
  | .file data => ⟨data.bytes.size, data.modified⟩
  | .directory => ⟨directorySize, fs.now⟩

def stat (fs : FileSystem) (path : FilePath) : Except IoError Metadata := do
  let found ← fs.lookUp path
  .ok (fs.metadataOf found.2)

def isDirectory (fs : FileSystem) (path : FilePath) : Bool :=
  match fs.lookUp path with
  | .ok (_, .directory) => true
  | _ => false

def read (fs : FileSystem) (path : FilePath) : Except IoError ByteArray := do
  match ← fs.lookUp path with
  | (_, .file data) => .ok data.bytes
  | (_, .directory) => .error .isADirectory

def list (fs : FileSystem) (path : FilePath) : Except IoError (List String) := do
  match ← fs.lookUp path with
  | (_, .file _) => .error .notADirectory
  | (location, .directory) =>
      let names := fs.entries.entries.filterMap fun entry =>
        match entry.1 with
        | name :: parent => if parent = location then some name else none
        | [] => none
      .ok (names.mergeSort fun a b => a ≤ b)

def pathOf (location : Location) : FilePath :=
  .ofChars ('/' :: Text.joinWith ['/'] (location.reverse.map String.toList))

def canonical (fs : FileSystem) (path : FilePath) : Except IoError FilePath := do
  let found ← fs.lookUp path
  .ok (pathOf found.1)

/-!
# Changing
-/

def put (fs : FileSystem) (location : Location) (entry : Entry) : FileSystem :=
  { fs with entries := fs.entries.insert location entry }

def drop (fs : FileSystem) (location : Location) : FileSystem :=
  { fs with entries := fs.entries.erase location }

def write (fs : FileSystem) (path : FilePath) (bytes : ByteArray) :
    Except IoError FileSystem := do
  match ← fs.approach path with
  | .dots => .error .isADirectory
  | .name directory name trailing =>
      if trailing then .error .isADirectory
      else if nameLimit < name.utf8ByteSize then .error .nameTooLong
      else
        match fs.entryAt (name :: directory) with
        | some .directory => .error .isADirectory
        | _ => .ok (fs.put (name :: directory) (.file ⟨bytes, fs.now⟩))

def setModified (fs : FileSystem) (path : FilePath) (time : Timestamp) :
    Except IoError FileSystem := do
  match ← fs.lookUp path with
  | (location, .file data) => .ok (fs.put location (.file { data with modified := time }))
  | (_, .directory) => .error .isADirectory

def makeDirectory (fs : FileSystem) (path : FilePath) : Except IoError FileSystem := do
  match ← fs.approach path with
  | .dots => .error .alreadyExists
  | .name directory name _ =>
      if nameLimit < name.utf8ByteSize then .error .nameTooLong
      else
        match fs.entryAt (name :: directory) with
        | some _ => .error .alreadyExists
        | none => .ok (fs.put (name :: directory) .directory)

/-!
A directory is created after its missing parents.  The parents that could be
created stay when a later step fails.
-/

def makeOrFind (fs : FileSystem) (path : FilePath) : FileSystem × Option IoError :=
  match fs.makeDirectory path with
  | .ok made => (made, none)
  | .error cause => (fs, if fs.isDirectory path then none else some cause)

/-- Creates a directory after its parents, which are given with the nearest one
first. -/
def makeAlong (fs : FileSystem) : FilePath -> List FilePath -> FileSystem × Option IoError
  | path, [] => fs.makeOrFind path
  | path, parent :: further =>
      if fs.makeDirectory path matches .error .notFound then
        if parent.text.isEmpty then
          (fs, some .notFound)
        else
          match makeAlong fs parent further with
          | (part, some cause) => (part, some cause)
          | (ready, none) => ready.makeOrFind path
      else
        fs.makeOrFind path

def makeDirectories (fs : FileSystem) (path : FilePath) : FileSystem × Option IoError :=
  if path.text.isEmpty then (fs, none) else fs.makeAlong path path.ancestors

def removeFile (fs : FileSystem) (path : FilePath) : Except IoError FileSystem := do
  match ← fs.approach path with
  | .dots => .error .isADirectory
  | .name directory name trailing =>
      if nameLimit < name.utf8ByteSize then .error .nameTooLong
      else
        match fs.entryAt (name :: directory) with
        | none => .error .notFound
        | some .directory => .error .isADirectory
        | some (.file _) =>
            if trailing then .error .notADirectory else .ok (fs.drop (name :: directory))

def rename (fs : FileSystem) (source target : FilePath) : Except IoError FileSystem := do
  match ← fs.lookUp source with
  | (_, .directory) => .error .isADirectory
  | (location, .file data) =>
      match ← fs.approach target with
      | .dots => .error .isADirectory
      | .name directory name trailing =>
          if trailing then .error .notADirectory
          else if nameLimit < name.utf8ByteSize then .error .nameTooLong
          else
            match fs.entryAt (name :: directory) with
            | some .directory => .error .isADirectory
            | _ => .ok ((fs.drop location).put (name :: directory) (.file data))

end FileSystem
end LessonPress

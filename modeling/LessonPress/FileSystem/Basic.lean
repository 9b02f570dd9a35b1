import LessonPress.Map.Table
import LessonPress.Path.Basic

/-!
# File systems

## Directories, files and the resolution of paths

A file system maps locations to files and directories.  A location is the list
of names from an entry up to the root.  A path is resolved name by name, and
every name is looked up in an existing directory; a slash at the end asks for a
directory as a dot does.
-/

namespace LessonPress

/-- A point in time: whole seconds since 1970 and nanoseconds after them. -/
structure Timestamp where
  seconds : Int
  nanos : Nat
deriving DecidableEq, Inhabited

inductive IoError where
  | notFound
  | notADirectory
  | isADirectory
  | alreadyExists
  | nameTooLong
  | nulByte
deriving DecidableEq, Inhabited

namespace IoError

def message : IoError -> String
  | notFound => "No such file or directory (os error 2)"
  | notADirectory => "Not a directory (os error 20)"
  | isADirectory => "Is a directory (os error 21)"
  | alreadyExists => "File exists (os error 17)"
  | nameTooLong => "File name too long (os error 36)"
  | nulByte => "file name contained an unexpected NUL byte"

end IoError

/-- Names from an entry up to the root, the entry's own name first. -/
abbrev Location := List String

structure FileData where
  bytes : ByteArray
  modified : Timestamp
deriving Inhabited

inductive Entry where
  | file (data : FileData)
  | directory
deriving Inhabited

/-- Entries by location, the directory where relative paths start, and the time
that writing leaves on a file. -/
structure FileSystem where
  entries : Table Location Entry
  workingDirectory : Location
  now : Timestamp
deriving Inhabited

namespace FileSystem

def directoriesTo : Location -> Table Location Entry
  | [] => Table.empty
  | name :: parent => (directoriesTo parent).insert (name :: parent) .directory

def new (workingDirectory : Location) (now : Timestamp) : FileSystem :=
  ⟨directoriesTo workingDirectory, workingDirectory, now⟩

/-- The root is always a directory. -/
def entryAt (fs : FileSystem) (location : Location) : Option Entry :=
  match location with
  | [] => some .directory
  | _ => fs.entries.find? location

/-!
# Resolution
-/

/-- The longest name, in bytes. -/
def nameLimit : Nat := 255

/-- The length that a path has to stay below, in bytes. -/
def pathLimit : Nat := 4096

/-- Looks up names one after the other, each in an existing directory.  The last
one need not exist. -/
def descend (fs : FileSystem) : Location -> List String -> Except IoError Location
  | location, [] => .ok location
  | location, name :: rest =>
      match fs.entryAt location with
      | none => .error .notFound
      | some (.file _) => .error .notADirectory
      | some .directory =>
          if name = "." then descend fs location rest
          else if name = ".." then descend fs location.tail rest
          else if nameLimit < name.utf8ByteSize then .error .nameTooLong
          else descend fs (name :: location) rest

structure Route where
  start : Location
  names : List String
  trailing : Bool

def route (fs : FileSystem) (path : FilePath) : Except IoError Route :=
  if path.chars.contains '\x00' then .error .nulByte
  else if pathLimit ≤ path.text.utf8ByteSize then .error .nameTooLong
  else if path.chars.isEmpty then .error .notFound
  else
    .ok
      { start := if path.isAbsolute then [] else fs.workingDirectory
        names := (path.segments.filter fun segment => !segment.isEmpty).map String.ofList
        trailing := Text.endsWith ['/'] path.chars }

/-- The location that a path names, whether or not something is there. -/
def resolve (fs : FileSystem) (path : FilePath) : Except IoError Location := do
  let route ← fs.route path
  fs.descend route.start (if route.trailing then route.names ++ ["."] else route.names)

def lookUp (fs : FileSystem) (path : FilePath) : Except IoError (Location × Entry) := do
  let location ← fs.resolve path
  match fs.entryAt location with
  | none => .error .notFound
  | some entry => .ok (location, entry)

inductive LastName where
  | name (directory : Location) (name : String) (trailing : Bool)
  | dots

def approach (fs : FileSystem) (path : FilePath) : Except IoError LastName := do
  let route ← fs.route path
  match route.names.reverse with
  | [] => .ok .dots
  | name :: front =>
      let directory ← fs.descend route.start (front.reverse ++ ["."])
      if name = "." ∨ name = ".." then .ok .dots
      else .ok (.name directory name route.trailing)

end FileSystem
end LessonPress

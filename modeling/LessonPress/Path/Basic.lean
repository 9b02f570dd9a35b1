import LessonPress.Text.Lines

/-!
# File paths

## Paths as texts and as lists of components

A path is kept as it is spelled.  Its components are the names between slashes;
repeated and trailing slashes do not count, and neither does a dot, unless it
starts a relative path.  Paths compare by their components.
-/

namespace LessonPress

structure FilePath where
  text : String
deriving DecidableEq, Inhabited

namespace FilePath

inductive Component where
  | root
  | current
  | parent
  | name (text : String)
deriving DecidableEq, Inhabited

/-!
# Segments

The segments of a path are the pieces between slashes, after the slash in front
of an absolute path.
-/

def chars (path : FilePath) : List Char :=
  path.text.toList

def ofChars (text : List Char) : FilePath :=
  ⟨String.ofList text⟩

def isAbsolute (path : FilePath) : Bool :=
  Text.startsWith ['/'] path.chars

def segments (path : FilePath) : List (List Char) :=
  Text.splitAt '/' (if path.isAbsolute then path.chars.drop 1 else path.chars)

/-- Whether a segment is a component; `first` tells whether it starts a relative
path. -/
def counts (first : Bool) (segment : List Char) : Bool :=
  !segment.isEmpty && (segment != ['.'] || first)

def componentOf (segment : List Char) : Component :=
  if segment = ['.'] then .current
  else if segment = ['.', '.'] then .parent
  else .name (String.ofList segment)

def components (path : FilePath) : List Component :=
  let tail := fun (segments : List (List Char)) =>
    (segments.filter (counts false)).map componentOf
  if path.isAbsolute then
    .root :: tail path.segments
  else
    match path.segments with
    | [] => []
    | first :: rest =>
        if counts true first then componentOf first :: tail rest else tail rest

/-- Equality by components. -/
def same (path other : FilePath) : Bool :=
  decide (path.components = other.components)

/-!
# Order

The root comes before a dot, a dot before a double dot, and both before names;
names compare by code points.
-/

def Component.rank : Component -> Nat
  | .root => 0
  | .current => 1
  | .parent => 2
  | .name _ => 3

def Component.before (a b : Component) : Bool :=
  match a, b with
  | .name left, .name right => left < right
  | _, _ => a.rank < b.rank

def componentsLe : List Component -> List Component -> Bool
  | [], _ => true
  | _ :: _, [] => false
  | a :: left, b :: right =>
      if a.before b then true
      else if b.before a then false
      else componentsLe left right

def le (path other : FilePath) : Bool :=
  componentsLe path.components other.components

/-!
# Joining
-/

/-- A path seen from a directory: an absolute path stands for itself. -/
def join (directory path : FilePath) : FilePath :=
  if path.isAbsolute then
    path
  else if directory.chars.isEmpty || Text.endsWith ['/'] directory.chars then
    ofChars (directory.chars ++ path.chars)
  else
    ofChars (directory.chars ++ '/' :: path.chars)

/-!
# Parents
-/

def markSegments (path : FilePath) : List (List Char × Bool) :=
  match path.segments with
  | [] => []
  | first :: rest =>
      (first, counts (!path.isAbsolute) first) ::
        rest.map fun segment => (segment, counts false segment)

def rebuild (absolute : Bool) (segments : List (List Char)) : FilePath :=
  let body := Text.joinWith ['/'] segments
  ofChars (if absolute then '/' :: body else body)

def dropIdle (marked : List (List Char × Bool)) : List (List Char × Bool) :=
  (marked.reverse.dropWhile fun entry => !entry.2).reverse

/-- The path without its last component; a root and an empty path have none. -/
def parent (path : FilePath) : Option FilePath :=
  match (dropIdle path.markSegments).reverse with
  | [] => none
  | _ :: front =>
      some (rebuild path.isAbsolute ((dropIdle front.reverse).map (·.1)))

def ancestorsUpTo : Nat -> FilePath -> List FilePath
  | 0, _ => []
  | fuel + 1, path =>
      match path.parent with
      | none => []
      | some directory => directory :: ancestorsUpTo fuel directory

def ancestors (path : FilePath) : List FilePath :=
  ancestorsUpTo path.chars.length path

/-!
# File names
-/

def fileName (path : FilePath) : Option String :=
  match path.components.reverse with
  | .name text :: _ => some text
  | _ => none

/-- A file name cut at its last dot, unless that dot starts the name. -/
def splitExtension (name : List Char) : List Char × Option (List Char) :=
  match Text.cutAt '.' name.reverse with
  | none => (name, none)
  | some (extension, stem) =>
      if stem.isEmpty then (name, none) else (stem.reverse, some extension.reverse)

def extension (path : FilePath) : Option String :=
  path.fileName.bind fun name =>
    (splitExtension name.toList).2.map String.ofList

def withExtension (path : FilePath) (extension : String) : FilePath :=
  match path.fileName with
  | none => path
  | some name =>
      let stem := (splitExtension name.toList).1
      let file := if extension.isEmpty then stem else stem ++ '.' :: extension.toList
      match (dropIdle path.markSegments).reverse with
      | [] => path
      | _ :: front => rebuild path.isAbsolute (front.reverse.map (·.1) ++ [file])

end FilePath
end LessonPress

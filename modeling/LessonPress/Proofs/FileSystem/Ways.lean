import LessonPress.Proofs.FileSystem.Names
import LessonPress.Proofs.FileSystem.Spelling

/-!
# Ways to files

## What an operation does at the end of a way, and what it leaves of other ways

The operations on a file go through its directory: they fail as the way to the directory
fails, and then only look at one entry of it.  Files come and go without changing a way,
and creating directories opens ways without changing an entry that was there.
-/

namespace LessonPress

def FilePath.refusal (path : FilePath) : Option IoError :=
  if path.chars.contains '\x00' then some .nulByte
  else if FileSystem.pathLimit ≤ path.text.utf8ByteSize then some .nameTooLong
  else if path.chars.isEmpty then some .notFound
  else none

namespace FileSystem

variable {fs made after : FileSystem} {location place parent : Location} {name : String}
  {path : FilePath} {front rest : List String}

/-!
# Entries
-/

theorem entryAt_put (fs : FileSystem) (name : String) (parent location : Location)
    (entry : Entry) :
    (fs.put (name :: parent) entry).entryAt location =
      if location = name :: parent then some entry else fs.entryAt location := by
  cases location with
  | nil => rfl
  | cons first above =>
      by_cases heq : first :: above = name :: parent
      · rw [if_pos heq, heq]
        exact Table.find?_insert_self _ _ _
      · rw [if_neg heq]
        exact Table.find?_insert_of_ne _ _ heq

theorem entryAt_drop (fs : FileSystem) (name : String) (parent location : Location) :
    (fs.drop (name :: parent)).entryAt location =
      if location = name :: parent then none else fs.entryAt location := by
  cases location with
  | nil => rfl
  | cons first above =>
      by_cases heq : first :: above = name :: parent
      · rw [if_pos heq, heq]
        exact Table.find?_erase_self _ _
      · rw [if_neg heq]
        exact Table.find?_erase_of_ne _ heq

/-!
# Ways
-/

def advance (location : Location) (name : String) : Except IoError Location :=
  if name = "." then .ok location
  else if name = ".." then .ok location.tail
  else if nameLimit < name.utf8ByteSize then .error .nameTooLong
  else .ok (name :: location)

theorem descend_cons (fs : FileSystem) (location : Location) (name : String)
    (rest : List String) :
    fs.descend location (name :: rest) =
      match fs.entryAt location with
      | none => .error .notFound
      | some (.file _) => .error .notADirectory
      | some .directory => (advance location name).bind fun next => fs.descend next rest := by
  rw [descend]
  cases fs.entryAt location with
  | none => rfl
  | some entry =>
      cases entry with
      | file data => rfl
      | directory =>
          dsimp only
          unfold advance
          split
          · rfl
          · split
            · rfl
            · split <;> rfl

theorem descend_dot (fs : FileSystem) (location : Location) :
    fs.descend location ["."] =
      match fs.entryAt location with
      | none => .error .notFound
      | some (.file _) => .error .notADirectory
      | some .directory => .ok location := by
  rw [descend_cons]
  cases fs.entryAt location with
  | none => rfl
  | some entry => cases entry <;> rfl

theorem descend_append (fs : FileSystem) (location : Location) (front rest : List String) :
    fs.descend location (front ++ rest) =
      (fs.descend location front).bind fun place => fs.descend place rest := by
  induction front generalizing location with
  | nil => rfl
  | cons name front ih =>
      rw [List.cons_append, descend_cons, descend_cons]
      cases fs.entryAt location with
      | none => rfl
      | some entry =>
          cases entry with
          | file data => rfl
          | directory =>
              dsimp only
              cases advance location name with
              | error cause => rfl
              | ok next => exact ih next

def lead : Location -> List String -> Location
  | location, [] => location
  | location, name :: rest =>
      if name = "." then lead location rest
      else if name = ".." then lead location.tail rest
      else lead (name :: location) rest

theorem lead_of_advance {next : Location} (h : advance location name = .ok next) :
    lead location (name :: rest) = lead next rest := by
  unfold advance at h
  rw [lead]
  split at h
  · rename_i hdot
    rw [if_pos hdot, Except.ok.inj h]
  · rename_i hdot
    rw [if_neg hdot]
    split at h
    · rename_i hparent
      rw [if_pos hparent, Except.ok.inj h]
    · rename_i hparent
      rw [if_neg hparent]
      split at h
      · cases h
      · rw [Except.ok.inj h]

theorem lead_dot (location : Location) (names : List String) :
    lead location (names ++ ["."]) = lead location names := by
  induction names generalizing location with
  | nil => rfl
  | cons name rest ih =>
      rw [List.cons_append, lead, lead]
      split
      · exact ih location
      · split
        · exact ih location.tail
        · exact ih (name :: location)

theorem descend_eq_lead {names : List String} (h : fs.descend location names = .ok place) :
    place = lead location names := by
  induction names generalizing location with
  | nil => exact (Except.ok.inj h).symm
  | cons name rest ih =>
      rw [descend_cons] at h
      split at h
      · cases h
      · cases h
      · cases hadvance : advance location name with
        | error cause =>
            rw [hadvance] at h
            cases h
        | ok next =>
            rw [hadvance] at h
            rw [lead_of_advance hadvance]
            exact ih h

theorem descend_concat (fs : FileSystem) (location : Location) (front : List String)
    (hplain : name ≠ "." ∧ name ≠ "..") (hshort : name.utf8ByteSize ≤ nameLimit) :
    fs.descend location (front ++ [name]) =
      (fs.descend location (front ++ ["."])).map (name :: ·) := by
  rw [descend_append, descend_append]
  cases fs.descend location front with
  | error cause => rfl
  | ok place =>
      have hstep : advance place name = .ok (name :: place) := by
        unfold advance
        rw [if_neg hplain.1, if_neg hplain.2, if_neg (Nat.not_lt.mpr hshort)]
      show fs.descend place [name] = (fs.descend place ["."]).map (name :: ·)
      rw [descend_dot, descend_cons]
      cases fs.entryAt place with
      | none => rfl
      | some entry =>
          cases entry with
          | file data => rfl
          | directory =>
              dsimp only
              rw [hstep]
              rfl

theorem descend_missing (h : fs.descend location (front ++ ["."]) = .error .notFound) :
    fs.descend location (front ++ rest ++ ["."]) = .error .notFound := by
  rw [descend_append] at h
  rw [List.append_assoc, descend_append]
  cases hfront : fs.descend location front with
  | error cause =>
      rw [hfront] at h
      exact h
  | ok place =>
      rw [hfront] at h
      change fs.descend place ["."] = .error .notFound at h
      show fs.descend place (rest ++ ["."]) = .error .notFound
      have hnone : fs.entryAt place = none := by
        rw [descend_dot] at h
        split at h
        · assumption
        · cases h
        · cases h
      cases rest with
      | nil => exact h
      | cons name rest => rw [List.cons_append, descend, hnone]

def base (fs : FileSystem) (path : FilePath) : Location :=
  if path.isAbsolute then [] else fs.workingDirectory

theorem route_eq (fs : FileSystem) (path : FilePath) :
    fs.route path =
      match path.refusal with
      | some cause => .error cause
      | none => .ok ⟨fs.base path, path.names, Text.endsWith ['/'] path.chars⟩ := by
  unfold route FilePath.refusal
  split
  · rfl
  · split
    · rfl
    · split <;> rfl

theorem refusal_ne_notFound (h : path.chars ≠ []) : path.refusal ≠ some .notFound := by
  unfold FilePath.refusal
  split
  · nofun
  · split
    · nofun
    · rw [if_neg (by simpa using h)]
      nofun

/-!
# The directory of a file
-/

def folder (fs : FileSystem) (path : FilePath) (front : List String) : Except IoError Location :=
  match path.refusal with
  | some cause => .error cause
  | none => fs.descend (fs.base path) (front ++ ["."])

theorem approach_eq (fs : FileSystem) (hpath : path.EndsIn front name) :
    fs.approach path = (fs.folder path front).map fun parent => .name parent name false := by
  have hdots : ¬ (name = "." ∨ name = "..") := not_or.mpr hpath.plain
  unfold approach folder
  rw [route_eq]
  cases path.refusal with
  | some cause => rfl
  | none =>
      rw [hpath.names_eq, hpath.unslashed]
      simp only [bind, Except.bind, List.reverse_append, List.reverse_cons, List.reverse_nil,
        List.nil_append, List.cons_append, List.reverse_reverse, if_neg hdots]
      cases fs.descend (fs.base path) (front ++ ["."]) <;> rfl

theorem resolve_eq (fs : FileSystem) (hpath : path.EndsIn front name)
    (hshort : name.utf8ByteSize ≤ nameLimit) :
    fs.resolve path = (fs.folder path front).map (name :: ·) := by
  unfold resolve folder
  rw [route_eq]
  cases path.refusal with
  | some cause => rfl
  | none =>
      rw [hpath.names_eq, hpath.unslashed]
      exact descend_concat fs _ front hpath.plain hshort

/-!
# Operations on a file
-/

section Files

variable (hpath : path.EndsIn front name) (hshort : name.utf8ByteSize ≤ nameLimit)

include hpath hshort

theorem lookUp_eq (fs : FileSystem) :
    fs.lookUp path = (fs.folder path front).bind fun parent =>
      match fs.entryAt (name :: parent) with
      | none => .error .notFound
      | some entry => .ok (name :: parent, entry) := by
  unfold lookUp
  rw [resolve_eq fs hpath hshort]
  cases fs.folder path front <;> rfl

theorem read_eq (fs : FileSystem) :
    fs.read path = (fs.folder path front).bind fun parent =>
      match fs.entryAt (name :: parent) with
      | none => .error .notFound
      | some .directory => .error .isADirectory
      | some (.file data) => .ok data.bytes := by
  unfold read
  rw [lookUp_eq hpath hshort]
  cases fs.folder path front with
  | error cause => rfl
  | ok parent =>
      dsimp only [Except.bind, bind]
      cases fs.entryAt (name :: parent) with
      | none => rfl
      | some entry => cases entry <;> rfl

theorem write_eq (fs : FileSystem) (bytes : ByteArray) :
    fs.write path bytes = (fs.folder path front).bind fun parent =>
      match fs.entryAt (name :: parent) with
      | some .directory => .error .isADirectory
      | _ => .ok (fs.put (name :: parent) (.file ⟨bytes, fs.now⟩)) := by
  unfold write
  rw [approach_eq fs hpath]
  cases fs.folder path front with
  | error cause => rfl
  | ok parent =>
      have hlength : ¬ nameLimit < name.utf8ByteSize := Nat.not_lt.mpr hshort
      cases hentry : fs.entryAt (name :: parent) with
      | none => simp [Except.map, Except.bind, bind, hlength, hentry]
      | some entry => cases entry <;> simp [Except.map, Except.bind, bind, hlength, hentry]

theorem removeFile_eq (fs : FileSystem) :
    fs.removeFile path = (fs.folder path front).bind fun parent =>
      match fs.entryAt (name :: parent) with
      | none => .error .notFound
      | some .directory => .error .isADirectory
      | some (.file _) => .ok (fs.drop (name :: parent)) := by
  unfold removeFile
  rw [approach_eq fs hpath]
  cases fs.folder path front with
  | error cause => rfl
  | ok parent =>
      have hlength : ¬ nameLimit < name.utf8ByteSize := Nat.not_lt.mpr hshort
      cases hentry : fs.entryAt (name :: parent) with
      | none => simp [Except.map, Except.bind, bind, hlength, hentry]
      | some entry => cases entry <;> simp [Except.map, Except.bind, bind, hlength, hentry]

end Files

theorem rename_eq (fs : FileSystem) {source target : FilePath} {draft : String}
    {before : List String} (hsource : source.EndsIn before draft)
    (hdraft : draft.utf8ByteSize ≤ nameLimit) (htarget : target.EndsIn front name)
    (hshort : name.utf8ByteSize ≤ nameLimit) :
    fs.rename source target = (fs.folder source before).bind fun parent =>
      match fs.entryAt (draft :: parent) with
      | none => .error .notFound
      | some .directory => .error .isADirectory
      | some (.file data) => (fs.folder target front).bind fun place =>
          match fs.entryAt (name :: place) with
          | some .directory => .error .isADirectory
          | _ => .ok ((fs.drop (draft :: parent)).put (name :: place) (.file data)) := by
  unfold rename
  rw [lookUp_eq hsource hdraft, approach_eq fs htarget]
  cases fs.folder source before with
  | error cause => rfl
  | ok parent =>
      dsimp only [Except.bind, bind]
      cases fs.entryAt (draft :: parent) with
      | none => rfl
      | some entry =>
          cases entry with
          | directory => rfl
          | file data =>
              cases fs.folder target front with
              | error cause => rfl
              | ok place =>
                  have hlength : ¬ nameLimit < name.utf8ByteSize := Nat.not_lt.mpr hshort
                  cases hentry : fs.entryAt (name :: place) with
                  | none => simp [Except.map, hlength, hentry]
                  | some entry => cases entry <;> simp [Except.map, hlength, hentry]

/-!
# Changes that leave every directory
-/

def KeepsDirectories (fs after : FileSystem) : Prop :=
  forall location, fs.entryAt location = some .directory ->
    after.entryAt location = some .directory

theorem KeepsDirectories.descend (h : fs.KeepsDirectories after) {names : List String}
    (hway : fs.descend location names = .ok place) : after.descend location names = .ok place := by
  induction names generalizing location with
  | nil => exact hway
  | cons name rest ih =>
      rw [descend_cons] at hway ⊢
      split at hway
      · cases hway
      · cases hway
      · rename_i hentry
        rw [h location hentry]
        cases hadvance : advance location name with
        | error cause =>
            rw [hadvance] at hway
            cases hway
        | ok next =>
            rw [hadvance] at hway
            exact ih hway

/-- Files came, went or changed at some locations, and everything else stayed. -/
structure Amended (fs after : FileSystem) (touched : List Location) : Prop where
  workingDirectory : after.workingDirectory = fs.workingDirectory
  directories : fs.KeepsDirectories after
  entryAt : forall location, location ∉ touched -> after.entryAt location = fs.entryAt location

theorem amended_of_entryAt {touched : Location}
    (hstart : after.workingDirectory = fs.workingDirectory)
    (hentry : forall location, location ≠ touched ->
      after.entryAt location = fs.entryAt location)
    (h : fs.entryAt touched ≠ some .directory) : fs.Amended after [touched] where
  workingDirectory := hstart
  directories := by
    intro location hlocation
    rw [hentry location, hlocation]
    rintro rfl
    exact h hlocation
  entryAt := by
    intro location hlocation
    exact hentry location fun heq => hlocation (List.mem_singleton.mpr heq)

theorem amended_put {data : FileData} (h : fs.entryAt (name :: parent) ≠ some .directory) :
    fs.Amended (fs.put (name :: parent) (.file data)) [name :: parent] := by
  refine amended_of_entryAt rfl (fun location hne => ?_) h
  rw [entryAt_put, if_neg hne]

theorem amended_drop (h : fs.entryAt (name :: parent) ≠ some .directory) :
    fs.Amended (fs.drop (name :: parent)) [name :: parent] := by
  refine amended_of_entryAt rfl (fun location hne => ?_) h
  rw [entryAt_drop, if_neg hne]

theorem Amended.trans {touched others : List Location} (h : fs.Amended made touched)
    (hafter : made.Amended after others) : fs.Amended after (touched ++ others) where
  workingDirectory := hafter.workingDirectory.trans h.workingDirectory
  directories := fun location hlocation =>
    hafter.directories location (h.directories location hlocation)
  entryAt := by
    intro location hlocation
    obtain ⟨hfirst, hsecond⟩ := not_or.mp fun hmem => hlocation (List.mem_append.mpr hmem)
    exact (hafter.entryAt location hsecond).trans (h.entryAt location hfirst)

theorem Amended.mono {touched others : List Location} (h : fs.Amended after touched)
    (hsubset : touched ⊆ others) : fs.Amended after others where
  workingDirectory := h.workingDirectory
  directories := h.directories
  entryAt := fun location hlocation => h.entryAt location fun hmem => hlocation (hsubset hmem)

/-!
# Creating directories
-/

structure Grown (fs after : FileSystem) : Prop where
  workingDirectory : after.workingDirectory = fs.workingDirectory
  entryAt : forall location, after.entryAt location = fs.entryAt location ∨
    (fs.entryAt location = none ∧ after.entryAt location = some .directory)

theorem Grown.refl (fs : FileSystem) : fs.Grown fs :=
  ⟨rfl, fun _ => Or.inl rfl⟩

theorem Grown.trans (h : fs.Grown made) (hafter : made.Grown after) : fs.Grown after where
  workingDirectory := hafter.workingDirectory.trans h.workingDirectory
  entryAt := by
    intro location
    rcases h.entryAt location with hsame | ⟨hnone, hnew⟩
    · rw [← hsame]
      exact hafter.entryAt location
    · rcases hafter.entryAt location with hsame | ⟨hgone, _⟩
      · exact Or.inr ⟨hnone, hsame.trans hnew⟩
      · rw [hnew] at hgone
        cases hgone

theorem Grown.file_iff (h : fs.Grown after) (data : FileData) :
    after.entryAt location = some (.file data) <-> fs.entryAt location = some (.file data) := by
  rcases h.entryAt location with hsame | ⟨hnone, hnew⟩
  · rw [hsame]
  · rw [hnone, hnew]
    exact ⟨nofun, nofun⟩

theorem grown_of_makeDirectory (h : fs.makeDirectory path = .ok made) : fs.Grown made := by
  unfold makeDirectory at h
  cases happroach : fs.approach path with
  | error cause =>
      rw [happroach] at h
      cases h
  | ok last =>
      rw [happroach] at h
      cases last with
      | dots => cases h
      | name parent name trailing =>
          dsimp only [bind, Except.bind] at h
          split at h
          · cases h
          · split at h
            · cases h
            · rename_i hnone
              rw [← Except.ok.inj h]
              refine ⟨rfl, fun location => ?_⟩
              rw [entryAt_put]
              by_cases hlocation : location = name :: parent
              · rw [if_pos hlocation, hlocation]
                exact Or.inr ⟨hnone, rfl⟩
              · rw [if_neg hlocation]
                exact Or.inl rfl

theorem grown_makeOrFind (fs : FileSystem) (path : FilePath) :
    fs.Grown (fs.makeOrFind path).1 := by
  unfold makeOrFind
  cases hmade : fs.makeDirectory path with
  | ok made => exact grown_of_makeDirectory hmade
  | error cause => exact Grown.refl fs

theorem grown_makeAlong (fs : FileSystem) (path : FilePath) (parents : List FilePath) :
    fs.Grown (fs.makeAlong path parents).1 := by
  induction parents generalizing path with
  | nil => exact grown_makeOrFind fs path
  | cons parent further ih =>
      unfold makeAlong
      split
      · rw [if_pos rfl]
        split
        · exact Grown.refl fs
        · have hparent := ih parent
          split
          · rename_i part cause hpart
            rw [hpart] at hparent
            exact hparent
          · rename_i ready hready
            rw [hready] at hparent
            exact hparent.trans (grown_makeOrFind ready path)
      · rw [if_neg Bool.false_ne_true]
        exact grown_makeOrFind fs path

theorem grown_makeDirectories (fs : FileSystem) (path : FilePath) :
    fs.Grown (fs.makeDirectories path).1 := by
  unfold makeDirectories
  split
  · exact Grown.refl fs
  · exact grown_makeAlong fs path path.ancestors

/-!
# Directories that are there
-/

def way (fs : FileSystem) (path : FilePath) : Except IoError Location :=
  fs.descend (fs.base path) (path.names ++ ["."])

theorem Amended.way {touched : List Location} (h : fs.Amended after touched)
    (hway : fs.way path = .ok place) : after.way path = .ok place := by
  unfold FileSystem.way base at hway ⊢
  rw [h.workingDirectory]
  exact h.directories.descend hway

theorem way_eq_lead (h : fs.way path = .ok place) : place = lead (fs.base path) path.names :=
  (descend_eq_lead h).trans (lead_dot _ _)

theorem way_of_isDirectory (h : fs.isDirectory path = true) :
    exists place, fs.way path = .ok place := by
  unfold isDirectory at h
  split at h
  · rename_i place hfound
    obtain ⟨hresolve, hentry⟩ := lookUp_eq_ok hfound
    refine ⟨place, ?_⟩
    unfold resolve at hresolve
    rw [route_eq] at hresolve
    cases hrefusal : path.refusal with
    | some cause =>
        rw [hrefusal] at hresolve
        cases hresolve
    | none =>
        rw [hrefusal] at hresolve
        dsimp only [bind, Except.bind] at hresolve
        unfold FileSystem.way
        split at hresolve
        · exact hresolve
        · rw [descend_append, hresolve]
          show fs.descend place ["."] = .ok place
          rw [descend_dot, hentry]
  · cases h

theorem isDirectory_of_way (h : forall place, fs.way path ≠ .ok place) :
    fs.isDirectory path = false := by
  rw [← Bool.not_eq_true]
  intro hdirectory
  obtain ⟨place, hplace⟩ := way_of_isDirectory hdirectory
  exact h place hplace

theorem way_of_front {directory : FilePath} (habsolute : directory.isAbsolute = path.isAbsolute)
    (hnames : directory.names <+: path.names) (h : fs.way path ≠ .error .notFound) :
    fs.way directory ≠ .error .notFound := by
  intro hmissing
  obtain ⟨rest, hrest⟩ := hnames
  apply h
  unfold way base at hmissing ⊢
  rw [← habsolute, ← hrest]
  exact descend_missing hmissing

theorem makeDirectory_of_way (hne : path.chars ≠ []) (h : fs.way path ≠ .error .notFound) :
    exists cause, cause ≠ .notFound ∧ fs.makeDirectory path = .error cause := by
  unfold makeDirectory approach
  rw [route_eq]
  cases hrefusal : path.refusal with
  | some cause =>
      exact ⟨cause, fun heq => refusal_ne_notFound hne (heq ▸ hrefusal), rfl⟩
  | none =>
      dsimp only [bind, Except.bind]
      cases hnames : path.names.reverse with
      | nil => exact ⟨.alreadyExists, nofun, rfl⟩
      | cons name front =>
          have hsplit : path.names = front.reverse ++ [name] := by
            rw [← List.reverse_reverse path.names, hnames, List.reverse_cons]
          unfold way at h
          rw [hsplit] at h
          dsimp only
          cases hparent : fs.descend (fs.base path) (front.reverse ++ ["."]) with
          | error cause =>
              refine ⟨cause, fun heq => h ?_, rfl⟩
              rw [heq] at hparent
              exact descend_missing hparent
          | ok parent =>
              dsimp only
              by_cases hdots : name = "." ∨ name = ".."
              · rw [if_pos hdots]
                exact ⟨.alreadyExists, nofun, rfl⟩
              · rw [if_neg hdots]
                dsimp only
                by_cases hlong : nameLimit < name.utf8ByteSize
                · rw [if_pos hlong]
                  exact ⟨.nameTooLong, nofun, rfl⟩
                · rw [if_neg hlong]
                  cases hentry : fs.entryAt (name :: parent) with
                  | some entry => exact ⟨.alreadyExists, nofun, rfl⟩
                  | none =>
                      refine absurd ?_ h
                      rw [descend_append, descend_concat fs _ _ (not_or.mp hdots)
                        (Nat.not_lt.mp hlong), hparent]
                      show fs.descend (name :: parent) ["."] = .error .notFound
                      rw [descend_dot, hentry]

theorem makeDirectories_of_way (h : fs.way path ≠ .error .notFound) :
    (fs.makeDirectories path).1 = fs := by
  unfold makeDirectories
  by_cases hempty : path.text.isEmpty = true
  · rw [if_pos hempty]
  · have hne : path.chars ≠ [] := by
      simpa [FilePath.chars, String.toList_eq_nil_iff] using hempty
    obtain ⟨cause, hcause, hmade⟩ := makeDirectory_of_way hne h
    have hfind : (fs.makeOrFind path).1 = fs := by
      unfold makeOrFind
      rw [hmade]
    rw [if_neg hempty]
    cases path.ancestors with
    | nil => exact hfind
    | cons parent further =>
        unfold makeAlong
        rw [hmade]
        cases cause with
        | notFound => exact absurd rfl hcause
        | notADirectory => exact hfind
        | isADirectory => exact hfind
        | alreadyExists => exact hfind
        | nameTooLong => exact hfind
        | nulByte => exact hfind

/-!
# Directories that cannot be created
-/

theorem makeDirectory_long {front : List String} {name : String} (hpath : path.EndsIn front name)
    (hlong : nameLimit < name.utf8ByteSize) :
    fs.makeDirectory path = (fs.folder path front).bind fun _ => .error .nameTooLong := by
  unfold makeDirectory
  rw [approach_eq fs hpath]
  cases fs.folder path front with
  | error cause => rfl
  | ok parent => exact if_pos hlong

theorem makeDirectories_below {above : FilePath} {further : List FilePath}
    (hpath : path.chars ≠ []) (habove : above.chars ≠ [])
    (hancestors : path.ancestors = above :: further)
    (hmissing : fs.makeDirectory path = .error .notFound)
    (hmade : fs.makeDirectory above = .ok made) :
    fs.makeDirectories path = made.makeOrFind path := by
  have hfirst : fs.makeAlong above further = (made, none) := by
    cases further with
    | nil =>
        unfold makeAlong makeOrFind
        rw [hmade]
    | cons next more =>
        unfold makeAlong makeOrFind
        rw [hmade]
        rfl
  have hfull : forall {path : FilePath}, path.chars ≠ [] -> path.text.isEmpty = false := by
    intro path hne
    simpa [FilePath.chars] using hne
  unfold makeDirectories
  rw [hfull hpath, if_neg Bool.false_ne_true, hancestors]
  unfold makeAlong
  rw [hmissing, if_pos rfl, hfull habove, if_neg Bool.false_ne_true, hfirst]

end FileSystem
end LessonPress

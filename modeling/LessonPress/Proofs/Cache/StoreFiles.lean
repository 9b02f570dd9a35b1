import LessonPress.Cache.JsonStore
import LessonPress.Proofs.FileSystem.Ways

/-!
# The files of a store

## The file and the draft of a key, and what the operations do to them

All files of a store stand in one directory, the home of the store.  An operation fails as
the way to the home fails, or it looks at the file and the draft of its key and at nothing
else.  Only a saving may create directories, and only where the home is missing.
-/

namespace LessonPress

/-!
# Names from hashes
-/

theorem Sha256.length_digest (message : List UInt8) : (digest message).length = 32 := by
  simp [digest, State.words, bytesOf]

namespace Text

theorem hexDigit_plain {n : Nat} (h : n < 16) :
    hexDigit n ≠ '/' ∧ hexDigit n ≠ '\x00' ∧ (hexDigit n).utf8Size = 1 := by
  have hall : forall n : Fin 16, hexDigit n ≠ '/' ∧ hexDigit n ≠ '\x00' ∧
      (hexDigit n).utf8Size = 1 := by decide
  exact hall ⟨n, h⟩

theorem utf8ByteSize_ofList {text : List Char} (h : forall c, c ∈ text -> c.utf8Size = 1) :
    (String.ofList text).utf8ByteSize = text.length := by
  induction text with
  | nil => rfl
  | cons c rest ih =>
      have hsplit : String.ofList (c :: rest) = String.singleton c ++ String.ofList rest :=
        String.toList_injective (by simp)
      rw [hsplit, String.utf8ByteSize_append, String.utf8ByteSize_singleton,
        h c List.mem_cons_self, ih fun d hd => h d (List.mem_cons_of_mem _ hd), List.length_cons,
        Nat.add_comm]

end Text

namespace ContentHash

theorem length_hex (bytes : ByteArray) : (of bytes).hex.toList.length = 64 := by
  unfold of
  rw [String.toList_ofList, List.length_flatMap]
  have hbyte : (fun byte => (hexByte byte).length) = fun _ : UInt8 => 2 := rfl
  rw [hbyte, List.map_const', List.sum_replicate_nat, Sha256.length_digest]

theorem hex_plain {bytes : ByteArray} {c : Char} (h : c ∈ (of bytes).hex.toList) :
    c ≠ '/' ∧ c ≠ '\x00' ∧ c.utf8Size = 1 := by
  unfold of at h
  rw [String.toList_ofList] at h
  obtain ⟨byte, _, hbyte⟩ := List.mem_flatMap.mp h
  have hhigh : byte.toNat / 16 < 16 := Nat.div_lt_of_lt_mul byte.toNat_lt
  rcases List.mem_cons.mp hbyte with rfl | hlow
  · exact Text.hexDigit_plain hhigh
  · rw [List.mem_singleton.mp hlow]
    exact Text.hexDigit_plain (Nat.mod_lt _ (by decide))

end ContentHash

namespace JsonStore

open FileSystem

variable {alpha : Type} {store : JsonStore alpha}

def entryName (key : String) : String :=
  (ContentHash.ofString key).hex ++ ".json"

def draftName (key : String) : String :=
  (ContentHash.ofString key).hex ++ ".tmp"

theorem hash_of_entryName {key other : String} (h : entryName key = entryName other) :
    ContentHash.ofString key = ContentHash.ofString other := by
  have hhex := (String.append_left_inj _).mp h
  exact congrArg ContentHash.mk hhex

theorem length_name (key ending : String) :
    ((ContentHash.ofString key).hex ++ ending).toList.length = 64 + ending.toList.length := by
  rw [String.toList_append, List.length_append]
  exact congrArg (· + _) (ContentHash.length_hex _)

theorem entryName_ne_draftName (key other : String) : entryName key ≠ draftName other := by
  intro h
  have hlength := congrArg (fun name => name.toList.length) h
  exact absurd ((length_name key ".json").symm.trans (hlength.trans (length_name other ".tmp")))
    (by decide)

section Names

variable {ending : String}

theorem ending_plain (hending : ending = ".json" ∨ ending = ".tmp") {c : Char}
    (h : c ∈ ending.toList) : c ≠ '/' ∧ c ≠ '\x00' ∧ c.utf8Size = 1 := by
  rcases hending with rfl | rfl
  · have hletters : ".json".toList = ['.', 'j', 's', 'o', 'n'] := rfl
    rw [hletters] at h
    simp only [List.mem_cons, List.not_mem_nil, or_false] at h
    rcases h with rfl | rfl | rfl | rfl | rfl <;> decide
  · have hletters : ".tmp".toList = ['.', 't', 'm', 'p'] := rfl
    rw [hletters] at h
    simp only [List.mem_cons, List.not_mem_nil, or_false] at h
    rcases h with rfl | rfl | rfl | rfl <;> decide

theorem name_plain (key : String) (hending : ending = ".json" ∨ ending = ".tmp") :
    FilePath.Plain ((ContentHash.ofString key).hex ++ ending).toList := by
  have hlength := length_name key ending
  refine ⟨?_, ?_, ?_, ?_⟩
  · rw [String.toList_append, List.mem_append]
    rintro (hhex | hmem)
    · exact (ContentHash.hex_plain hhex).1 rfl
    · exact (ending_plain hending hmem).1 rfl
  all_goals
    intro heq
    rw [heq] at hlength
    simp at hlength
    try omega

theorem utf8ByteSize_name (key : String) (hending : ending = ".json" ∨ ending = ".tmp") :
    ((ContentHash.ofString key).hex ++ ending).utf8ByteSize = 64 + ending.toList.length := by
  have hascii : forall c, c ∈ ((ContentHash.ofString key).hex ++ ending).toList ->
      c.utf8Size = 1 := by
    intro c hc
    rw [String.toList_append, List.mem_append] at hc
    rcases hc with hhex | hmem
    · exact (ContentHash.hex_plain hhex).2.2
    · exact (ending_plain hending hmem).2.2
  have hsize := Text.utf8ByteSize_ofList hascii
  rw [String.ofList_toList, length_name] at hsize
  exact hsize

theorem name_short (key : String) (hending : ending = ".json" ∨ ending = ".tmp") :
    ((ContentHash.ofString key).hex ++ ending).utf8ByteSize ≤ nameLimit := by
  rw [utf8ByteSize_name key hending]
  rcases hending with rfl | rfl <;> decide

end Names

theorem plain_entryName (key : String) : FilePath.Plain (entryName key).toList :=
  name_plain key (Or.inl rfl)

theorem plain_draftName (key : String) : FilePath.Plain (draftName key).toList :=
  name_plain key (Or.inr rfl)

/-!
# The home of a store
-/

def home (store : JsonStore alpha) (fs : FileSystem) : Except IoError Location :=
  fs.way store.directory

structure Houses (store : JsonStore alpha) (path : FilePath) (name : String) : Prop where
  endsIn : path.EndsIn store.directory.names name
  isAbsolute : path.isAbsolute = store.directory.isAbsolute
  short : name.utf8ByteSize ≤ nameLimit

theorem Houses.folder {path : FilePath} {name : String} (h : store.Houses path name)
    (fs : FileSystem) :
    fs.folder path store.directory.names =
      match path.refusal with
      | some cause => .error cause
      | none => store.home fs := by
  unfold FileSystem.folder home way base
  cases path.refusal with
  | some cause => rfl
  | none => simp only [h.isAbsolute]

theorem entryPath_eq (store : JsonStore alpha) (key : String) :
    store.entryPath key = store.directory.join (FilePath.ofChars (entryName key).toList) := by
  unfold entryPath fileName FilePath.ofChars entryName
  rw [String.ofList_toList]

theorem segments_entryPath (store : JsonStore alpha) (key : String) :
    (store.entryPath key).isAbsolute = store.directory.isAbsolute ∧
      exists segments, (store.entryPath key).segments = segments ++ [(entryName key).toList] ∧
        FilePath.namesIn segments = store.directory.names := by
  have hplain := plain_entryName key
  rw [entryPath_eq]
  exact ⟨(FilePath.body_join store.directory hplain).left,
    FilePath.segments_join store.directory hplain⟩

theorem splitExtension_entryName (key : String) :
    FilePath.splitExtension (entryName key).toList =
      ((ContentHash.ofString key).hex.toList, some "json".toList) := by
  have hname : (entryName key).toList.reverse =
      "json".toList.reverse ++ '.' :: (ContentHash.ofString key).hex.toList.reverse := by
    unfold entryName
    rw [String.toList_append, List.reverse_append]
    rfl
  have hhex : (ContentHash.ofString key).hex ≠ "" := by
    intro h
    have hlength := ContentHash.length_hex key.toUTF8
    rw [show ContentHash.of key.toUTF8 = ContentHash.ofString key from rfl, h] at hlength
    cases hlength
  unfold FilePath.splitExtension
  rw [hname, Text.cutAt_append (by decide)]
  simp [hhex]

theorem segments_draftPath (store : JsonStore alpha) (key : String) :
    (store.draftPath key).isAbsolute = store.directory.isAbsolute ∧
      exists segments, (store.draftPath key).segments = segments ++ [(draftName key).toList] ∧
        FilePath.namesIn segments = store.directory.names := by
  obtain ⟨hstart, segments, hsegments, hnames⟩ := segments_entryPath store key
  have hslash : '/' ∉ (ContentHash.ofString key).hex.toList :=
    fun hmem => (ContentHash.hex_plain hmem).1 rfl
  obtain ⟨habsolute, hdraft⟩ := FilePath.withExtension_segments "tmp" hsegments
    (plain_entryName key) (congrArg (·.1) (splitExtension_entryName key)) (by decide)
    ⟨hslash, by decide⟩
  refine ⟨habsolute.trans hstart, segments, ?_, hnames⟩
  have hname : (draftName key).toList =
      (ContentHash.ofString key).hex.toList ++ '.' :: "tmp".toList := by
    unfold draftName
    rw [String.toList_append]
    rfl
  rw [hname]
  exact hdraft

theorem houses_of_segments {path : FilePath} {name : String}
    (h : path.isAbsolute = store.directory.isAbsolute ∧
      exists segments, path.segments = segments ++ [name.toList] ∧
        FilePath.namesIn segments = store.directory.names)
    (hplain : FilePath.Plain name.toList) (hshort : name.utf8ByteSize ≤ nameLimit) :
    store.Houses path name := by
  obtain ⟨habsolute, segments, hsegments, hnames⟩ := h
  have hends := FilePath.endsIn_of_segments hsegments hplain
  rw [hnames, String.ofList_toList] at hends
  exact ⟨hends, habsolute, hshort⟩

theorem houses_entryPath (store : JsonStore alpha) (key : String) :
    store.Houses (store.entryPath key) (entryName key) :=
  houses_of_segments (segments_entryPath store key) (plain_entryName key)
    (name_short key (Or.inl rfl))

theorem houses_draftPath (store : JsonStore alpha) (key : String) :
    store.Houses (store.draftPath key) (draftName key) :=
  houses_of_segments (segments_draftPath store key) (plain_draftName key)
    (name_short key (Or.inr rfl))

/-- The path of a file is refused only where the path of the directory nearly is. -/
theorem refusal_entryPath (store : JsonStore alpha) (key : String)
    (hnul : '\x00' ∉ store.directory.chars)
    (hshort : store.directory.text.utf8ByteSize + 70 < pathLimit) :
    (store.entryPath key).refusal = none := by
  have hname : '\x00' ∉ (entryName key).toList := by
    unfold entryName
    rw [String.toList_append, List.mem_append]
    rintro (hhex | hmem)
    · exact (ContentHash.hex_plain hhex).2.1 rfl
    · exact (ending_plain (Or.inl rfl) hmem).2.1 rfl
  have hsize : (entryName key).utf8ByteSize = 69 := utf8ByteSize_name key (Or.inl rfl)
  obtain ⟨gap, hgap, hpath⟩ := FilePath.chars_join store.directory (plain_entryName key)
  rw [← entryPath_eq] at hpath
  have hbytes : (store.entryPath key).text.utf8ByteSize < pathLimit := by
    have hsmall : (String.ofList gap).utf8ByteSize ≤ 1 := by
      rcases hgap with rfl | rfl <;> decide
    rw [hpath]
    unfold FilePath.ofChars FilePath.chars
    rw [String.ofList_append, String.ofList_append, String.ofList_toList, String.ofList_toList,
      String.utf8ByteSize_append, String.utf8ByteSize_append]
    omega
  have hclean : '\x00' ∉ (store.entryPath key).chars := by
    rw [hpath, FilePath.chars_ofChars, List.mem_append, List.mem_append]
    rintro ((hmem | hmem) | hmem)
    · exact hnul hmem
    · rcases hgap with rfl | rfl <;> revert hmem <;> decide
    · exact hname hmem
  have hne := (store.houses_entryPath key).endsIn.chars_ne_nil
  unfold FilePath.refusal
  rw [if_neg (by simpa using hclean), if_neg (Nat.not_le.mpr hbytes), if_neg (by simpa using hne)]

/-!
# Loading
-/

variable {fs ready after : FileSystem} {key : String} {persisted : PersistedEntry alpha}

def entryFor (store : JsonStore alpha) (key : String) (bytes : ByteArray) :
    Except Error (Option (PersistedEntry alpha)) :=
  match store.readEntry bytes with
  | none => .error malformed
  | some persisted => if persisted.key = key then .ok (some persisted) else .ok none

theorem load_eq (store : JsonStore alpha) (fs : FileSystem) (key : String) :
    store.load {} fs key =
      match (store.entryPath key).refusal with
      | some cause => .error (ioFailure (store.entryPath key) cause)
      | none =>
          match store.home fs with
          | .error .notFound => .ok none
          | .error cause => .error (ioFailure (store.entryPath key) cause)
          | .ok parent =>
              match fs.entryAt (entryName key :: parent) with
              | none => .ok none
              | some .directory => .error (ioFailure (store.entryPath key) .isADirectory)
              | some (.file data) => store.entryFor key data.bytes := by
  have hfile := store.houses_entryPath key
  have hread := read_eq hfile.endsIn hfile.short fs
  rw [hfile.folder] at hread
  unfold load
  dsimp only
  cases hrefusal : (store.entryPath key).refusal with
  | some cause =>
      rw [hrefusal] at hread
      rw [hread]
      cases cause with
      | notFound => exact absurd hrefusal (refusal_ne_notFound hfile.endsIn.chars_ne_nil)
      | notADirectory => rfl
      | isADirectory => rfl
      | alreadyExists => rfl
      | nameTooLong => rfl
      | nulByte => rfl
  | none =>
      rw [hrefusal] at hread
      rw [hread]
      dsimp only
      cases store.home fs with
      | error cause => cases cause <;> rfl
      | ok parent =>
          dsimp only [Except.bind]
          cases fs.entryAt (entryName key :: parent) with
          | none => rfl
          | some entry => cases entry <;> rfl

theorem load_of_ok {faults : Faults} {found : Option (PersistedEntry alpha)}
    (h : store.load faults fs key = .ok found) : store.load {} fs key = .ok found := by
  unfold load at h ⊢
  cases hread : faults.read with
  | some message =>
      rw [hread] at h
      cases h
  | none =>
      rw [hread] at h
      exact h

/-!
# Saving
-/

/-- What a saving that fails or succeeds leaves, given the file system with the directories
that it created. -/
inductive Saved (store : JsonStore alpha) (ready : FileSystem) (persisted : PersistedEntry alpha) :
    Except Error Unit -> FileSystem -> Prop
  | untouched (failure : Error) : Saved store ready persisted (.error failure) ready
  | drafted {parent : Location} {after : FileSystem} (failure : Error)
      (hhome : store.home ready = .ok parent)
      (hafter : ready.Amended after [draftName persisted.key :: parent]) :
      Saved store ready persisted (.error failure) after
  | published {parent : Location} {after : FileSystem} {data : FileData}
      (hrefusal : (store.entryPath persisted.key).refusal = none)
      (hhome : store.home ready = .ok parent)
      (hafter : ready.Amended after
        [draftName persisted.key :: parent, entryName persisted.key :: parent])
      (hentry : after.entryAt (entryName persisted.key :: parent) = some (.file data))
      (hdata : data.bytes = (store.entryText persisted).toUTF8) :
      Saved store ready persisted (.ok ()) after

/-- Directories were created, and only because the home was missing. -/
structure Prepared (store : JsonStore alpha) (fs ready : FileSystem) : Prop where
  grown : fs.Grown ready
  same : store.home fs ≠ .error .notFound -> ready = fs

theorem prepared_makeDirectories {path : FilePath}
    (habsolute : path.isAbsolute = store.directory.isAbsolute)
    (hnames : path.names <+: store.directory.names) :
    store.Prepared fs (fs.makeDirectories path).1 where
  grown := grown_makeDirectories fs path
  same := fun hhome => makeDirectories_of_way (way_of_front habsolute hnames hhome)

theorem prepared_prepare (store : JsonStore alpha) (faults : Faults) (fs : FileSystem) :
    store.Prepared fs (store.prepare faults fs).2 := by
  unfold prepare
  cases faults.directory with
  | some failing =>
      dsimp only
      cases hparent : store.directory.ancestors[failing.2]? with
      | none => exact ⟨Grown.refl fs, fun _ => rfl⟩
      | some parent =>
          obtain ⟨habsolute, hnames⟩ := FilePath.ancestors_names (List.mem_of_getElem? hparent)
          exact prepared_makeDirectories habsolute hnames
  | none =>
      have hmade : store.Prepared fs (fs.makeDirectories store.directory).1 :=
        prepared_makeDirectories rfl List.prefix_rfl
      dsimp only
      split
      · rename_i part cause hpart
        rw [hpart] at hmade
        exact hmade
      · rename_i ready hready
        rw [hready] at hmade
        exact hmade

theorem write_draft {bytes : ByteArray} (h : fs.write (store.draftPath key) bytes = .ok after) :
    exists parent, store.home fs = .ok parent ∧
      fs.entryAt (draftName key :: parent) ≠ some .directory ∧
      after = fs.put (draftName key :: parent) (.file ⟨bytes, fs.now⟩) := by
  have hdraft := store.houses_draftPath key
  rw [write_eq hdraft.endsIn hdraft.short, hdraft.folder] at h
  split at h
  · cases h
  · cases hhome : store.home fs with
    | error cause =>
        rw [hhome] at h
        cases h
    | ok parent =>
        rw [hhome] at h
        dsimp only [Except.bind] at h
        split at h
        · cases h
        · rename_i hentry
          exact ⟨parent, rfl, hentry, (Except.ok.inj h).symm⟩

theorem publish_cases {parent : Location} {data : FileData} (faults : Faults)
    (hhome : store.home fs = .ok parent)
    (hdraft : fs.entryAt (draftName key :: parent) = some (.file data)) :
    (exists failure, store.publish faults fs key = (.error failure, fs)) ∨
      ((store.entryPath key).refusal = none ∧
        fs.entryAt (entryName key :: parent) ≠ some .directory ∧
        store.publish faults fs key =
          (.ok (), (fs.drop (draftName key :: parent)).put (entryName key :: parent)
            (.file data))) := by
  have hsource := store.houses_draftPath key
  have htarget := store.houses_entryPath key
  have hrename := rename_eq fs hsource.endsIn hsource.short htarget.endsIn htarget.short
  rw [hsource.folder, htarget.folder, hhome] at hrename
  unfold publish
  cases faults.move with
  | some message => exact Or.inl ⟨_, rfl⟩
  | none =>
      dsimp only
      rw [hrename]
      cases (store.draftPath key).refusal with
      | some cause => exact Or.inl ⟨_, rfl⟩
      | none =>
          dsimp only [Except.bind]
          rw [hdraft]
          dsimp only
          cases (store.entryPath key).refusal with
          | some cause => exact Or.inl ⟨_, rfl⟩
          | none =>
              dsimp only
              by_cases hdirectory : fs.entryAt (entryName key :: parent) = some .directory
              · rw [hdirectory]
                exact Or.inl ⟨_, rfl⟩
              · refine Or.inr ⟨rfl, hdirectory, ?_⟩
                split
                · rename_i cause hcause
                  split at hcause
                  · rename_i hentry
                    exact absurd hentry hdirectory
                  · cases hcause
                · rename_i moved hmoved
                  split at hmoved
                  · cases hmoved
                  · rw [← Except.ok.inj hmoved]

theorem saved_publish {parent : Location} {data : FileData} (faults : Faults)
    (hhome : store.home ready = .ok parent)
    (hfree : ready.entryAt (draftName persisted.key :: parent) ≠ some .directory)
    (hdata : data.bytes = (store.entryText persisted).toUTF8) :
    store.Saved ready persisted
      (store.publish faults (ready.put (draftName persisted.key :: parent) (.file data))
        persisted.key).1
      (store.publish faults (ready.put (draftName persisted.key :: parent) (.file data))
        persisted.key).2 := by
  have hwritten : ready.Amended (ready.put (draftName persisted.key :: parent) (.file data)) _ :=
    amended_put hfree
  have hdraft : (ready.put (draftName persisted.key :: parent) (.file data)).entryAt
      (draftName persisted.key :: parent) = some (.file data) := by
    rw [entryAt_put, if_pos rfl]
  generalize ready.put (draftName persisted.key :: parent) (.file data) = written
    at hwritten hdraft
  rcases publish_cases faults (hwritten.way hhome) hdraft with
    ⟨failure, hpublish⟩ | ⟨hrefusal, hentry, hpublish⟩
  · rw [hpublish]
    exact .drafted failure hhome hwritten
  · rw [hpublish]
    have hfile : written.entryAt (draftName persisted.key :: parent) ≠ some .directory := by
      rw [hdraft]
      nofun
    have hdropped := hwritten.trans (amended_drop hfile)
    have hplace : (written.drop (draftName persisted.key :: parent)).entryAt
        (entryName persisted.key :: parent) ≠ some .directory := by
      rw [entryAt_drop, if_neg fun heq => entryName_ne_draftName _ _ (List.cons.inj heq).left]
      exact hentry
    refine .published hrefusal hhome ((hdropped.trans (amended_put hplace)).mono ?_) ?_ hdata
    · simp
    · rw [entryAt_put, if_pos rfl]

theorem saved_save (store : JsonStore alpha) (faults : Faults) (fs : FileSystem)
    (persisted : PersistedEntry alpha) :
    exists ready, store.Prepared fs ready ∧
      store.Saved ready persisted (store.save faults fs persisted).1
        (store.save faults fs persisted).2 := by
  have hprepared := prepared_prepare store faults fs
  unfold save
  cases hprepare : store.prepare faults fs with
  | mk problem ready =>
      rw [hprepare] at hprepared
      refine ⟨ready, hprepared, ?_⟩
      cases problem with
      | some failure => exact .untouched failure
      | none =>
          dsimp only
          unfold writeDraft
          cases faults.create with
          | some message => exact .untouched _
          | none =>
              cases faults.write with
              | some failing =>
                  dsimp only
                  cases hwrite : ready.write (store.draftPath persisted.key)
                      ((store.entryText persisted).toUTF8.extract 0 failing.2) with
                  | error cause => exact .untouched _
                  | ok torn =>
                      obtain ⟨parent, hhome, hfree, rfl⟩ := write_draft hwrite
                      exact .drafted _ hhome (amended_put hfree)
              | none =>
                  dsimp only
                  cases hwrite : ready.write (store.draftPath persisted.key)
                      (store.entryText persisted).toUTF8 with
                  | error cause => exact .untouched _
                  | ok written =>
                      obtain ⟨parent, hhome, hfree, rfl⟩ := write_draft hwrite
                      exact saved_publish faults hhome hfree rfl

theorem save_of_unmade {part : FileSystem} {cause : IoError}
    (h : fs.makeDirectories store.directory = (part, some cause)) :
    store.save {} fs persisted = (.error (ioFailure store.directory cause), part) := by
  unfold save prepare
  dsimp only
  rw [h]

/-!
# Removing
-/

inductive Removed (store : JsonStore alpha) (fs : FileSystem) (key : String) :
    Except Error Unit -> FileSystem -> Prop
  | untouched (failure : Error) : Removed store fs key (.error failure) fs
  | missing (hhome : store.home fs = .error .notFound) : Removed store fs key (.ok ()) fs
  | absent {parent : Location} (hhome : store.home fs = .ok parent)
      (hentry : fs.entryAt (entryName key :: parent) = none) : Removed store fs key (.ok ()) fs
  | dropped {parent : Location} {after : FileSystem} (hhome : store.home fs = .ok parent)
      (hafter : fs.Amended after [entryName key :: parent])
      (hentry : after.entryAt (entryName key :: parent) = none) :
      Removed store fs key (.ok ()) after

theorem removed_of_error {faults : Faults} {cause : IoError} (hfaults : faults.remove = none)
    (hcause : fs.removeFile (store.entryPath key) = .error cause)
    (hmissing : cause = .notFound -> store.home fs = .error .notFound) :
    store.Removed fs key (store.remove faults fs key).1 (store.remove faults fs key).2 := by
  unfold remove
  rw [hfaults]
  dsimp only
  rw [hcause]
  cases cause with
  | notFound => exact .missing (hmissing rfl)
  | notADirectory => exact .untouched _
  | isADirectory => exact .untouched _
  | alreadyExists => exact .untouched _
  | nameTooLong => exact .untouched _
  | nulByte => exact .untouched _

theorem removed_remove (store : JsonStore alpha) (faults : Faults) (fs : FileSystem)
    (key : String) :
    store.Removed fs key (store.remove faults fs key).1 (store.remove faults fs key).2 := by
  have hfile := store.houses_entryPath key
  have hremove := removeFile_eq hfile.endsIn hfile.short fs
  rw [hfile.folder] at hremove
  cases hfaults : faults.remove with
  | some message =>
      unfold remove
      rw [hfaults]
      exact .untouched _
  | none =>
      cases hrefusal : (store.entryPath key).refusal with
      | some cause =>
          rw [hrefusal] at hremove
          have hne := refusal_ne_notFound hfile.endsIn.chars_ne_nil
          exact removed_of_error hfaults hremove fun heq => absurd (heq ▸ hrefusal) hne
      | none =>
          rw [hrefusal] at hremove
          cases hhome : store.home fs with
          | error cause =>
              rw [hhome] at hremove
              exact removed_of_error hfaults hremove fun heq => heq ▸ hhome
          | ok parent =>
              rw [hhome] at hremove
              unfold remove
              rw [hfaults]
              dsimp only [Except.bind] at hremove ⊢
              cases hentry : fs.entryAt (entryName key :: parent) with
              | none =>
                  rw [hremove, hentry]
                  exact .absent hhome hentry
              | some entry =>
                  cases entry with
                  | directory =>
                      rw [hremove, hentry]
                      exact .untouched _
                  | file data =>
                      have hplain : fs.entryAt (entryName key :: parent) ≠ some .directory := by
                        rw [hentry]
                        nofun
                      rw [hremove, hentry]
                      refine .dropped hhome (amended_drop hplain) ?_
                      rw [entryAt_drop, if_pos rfl]

end JsonStore
end LessonPress

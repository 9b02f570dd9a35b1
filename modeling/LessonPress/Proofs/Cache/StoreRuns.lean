import LessonPress.Proofs.Cache.EntryCodec
import LessonPress.Proofs.Cache.StoreFiles

/-!
# Runs of a store

## A store of files stands for a map from keys to entries

The map changes when a saving or a removal succeeds, whatever the operations on files did
before they failed.  The file of a key holds the text of its entry in the map; drafts that
were left behind and directories that were created are of no account.
-/

namespace LessonPress
namespace JsonStore

open FileSystem

/-!
# Operations and runs
-/

inductive Operation (alpha : Type) where
  | save (faults : Faults) (persisted : PersistedEntry alpha)
  | load (faults : Faults) (key : String)
  | remove (faults : Faults) (key : String)

variable {alpha : Type}

def Operation.key : Operation alpha -> String
  | .save _ persisted => persisted.key
  | .load _ key => key
  | .remove _ key => key

def Operation.Exact : Operation alpha -> Prop
  | .save _ persisted => persisted.Exact
  | .load _ _ => True
  | .remove _ _ => True

abbrev Outcome (alpha : Type) : Type :=
  Except Error (Option (PersistedEntry alpha))

def perform (store : JsonStore alpha) (fs : FileSystem) :
    Operation alpha -> Outcome alpha × FileSystem
  | .save faults persisted =>
      ((store.save faults fs persisted).1.map fun _ => none, (store.save faults fs persisted).2)
  | .load faults key => (store.load faults fs key, fs)
  | .remove faults key =>
      ((store.remove faults fs key).1.map fun _ => none, (store.remove faults fs key).2)

abbrev History (alpha : Type) : Type :=
  List (Operation alpha × Outcome alpha)

def run (store : JsonStore alpha) (fs : FileSystem) :
    List (Operation alpha) -> History alpha × FileSystem
  | [] => ([], fs)
  | operation :: earlier =>
      let past := store.run fs earlier
      let now := store.perform past.2 operation
      ((operation, now.1) :: past.1, now.2)

/-- The entry of the last successful saving of a key, unless a successful removal
followed. -/
def lastSaved (key : String) : History alpha -> Option (PersistedEntry alpha)
  | [] => none
  | (.save _ persisted, .ok _) :: earlier =>
      if persisted.key = key then some persisted else lastSaved key earlier
  | (.remove _ removed, .ok _) :: earlier =>
      if removed = key then none else lastSaved key earlier
  | _ :: earlier => lastSaved key earlier

/-!
# What stands in the file of a key
-/

variable {store : JsonStore alpha} {fs ready after : FileSystem} {key : String}
  {persisted : PersistedEntry alpha} {touched : List Location} {parent : Location}

def place (store : JsonStore alpha) (fs : FileSystem) : Location :=
  lead (fs.base store.directory) store.directory.names

def Bare (store : JsonStore alpha) (fs : FileSystem) (key : String) : Prop :=
  forall data, fs.entryAt (entryName key :: store.place fs) ≠ some (.file data)

structure Holds (store : JsonStore alpha) (fs : FileSystem) (key : String)
    (persisted : PersistedEntry alpha) : Prop where
  key_eq : persisted.key = key
  exact : persisted.Exact
  refusal : (store.entryPath key).refusal = none
  file : exists parent data, store.home fs = .ok parent ∧
    fs.entryAt (entryName key :: parent) = some (.file data) ∧
    data.bytes = (store.entryText persisted).toUTF8

theorem place_congr (h : after.workingDirectory = fs.workingDirectory) :
    store.place after = store.place fs := by
  unfold place base
  rw [h]

theorem place_of_home (h : store.home fs = .ok parent) : store.place fs = parent :=
  (way_eq_lead h).symm

theorem load_of_holds (hcodec : store.codec.Faithful) (h : store.Holds fs key persisted) :
    store.load {} fs key = .ok (some persisted) := by
  obtain ⟨parent, data, hhome, hentry, hdata⟩ := h.file
  rw [load_eq, h.refusal, hhome]
  dsimp only
  rw [hentry]
  dsimp only
  unfold entryFor
  rw [hdata, readEntry_entryText hcodec h.exact]
  exact if_pos h.key_eq

theorem load_of_bare (h : store.Bare fs key) :
    store.load {} fs key = .ok none ∨ exists failure, store.load {} fs key = .error failure := by
  rw [load_eq]
  cases (store.entryPath key).refusal with
  | some cause => exact Or.inr ⟨_, rfl⟩
  | none =>
      dsimp only
      cases hhome : store.home fs with
      | error cause => cases cause <;> first | exact Or.inl rfl | exact Or.inr ⟨_, rfl⟩
      | ok parent =>
          dsimp only
          cases hentry : fs.entryAt (entryName key :: parent) with
          | none => exact Or.inl rfl
          | some entry =>
              cases entry with
              | directory => exact Or.inr ⟨_, rfl⟩
              | file data =>
                  rw [← place_of_home hhome] at hentry
                  exact absurd hentry (h data)

theorem holds_of_published {outcome : Except Error Unit}
    (h : store.Saved ready persisted outcome after) (hexact : persisted.Exact)
    (houtcome : outcome = .ok ()) : store.Holds after persisted.key persisted := by
  cases h with
  | untouched failure => cases houtcome
  | drafted failure hhome hafter => cases houtcome
  | published hrefusal hhome hafter hentry hdata =>
      exact ⟨rfl, hexact, hrefusal, _, _, hafter.way hhome, hentry, hdata⟩

def Tracks (store : JsonStore alpha) (fs : FileSystem) (key : String)
    (saved : Option (PersistedEntry alpha)) : Prop :=
  match saved with
  | none => store.Bare fs key
  | some persisted => store.Holds fs key persisted

theorem bare_of_removed {outcome : Except Error Unit} {saved : Option (PersistedEntry alpha)}
    (h : store.Removed fs key outcome after) (hbefore : store.Tracks fs key saved)
    (houtcome : outcome = .ok ()) : store.Bare after key := by
  cases h with
  | untouched failure => cases houtcome
  | missing hhome =>
      cases saved with
      | none => exact hbefore
      | some persisted =>
          obtain ⟨parent, data, hparent, _, _⟩ := hbefore.file
          rw [hhome] at hparent
          cases hparent
  | absent hhome hentry =>
      intro data
      rw [place_of_home hhome, hentry]
      nofun
  | dropped hhome hafter hentry =>
      intro data
      rw [place_of_home (hafter.way hhome), hentry]
      nofun

/-!
# Files that are left alone
-/

def Spared (store : JsonStore alpha) (fs after : FileSystem) (key : String) : Prop :=
  after = fs ∨ exists parent touched, store.home fs = .ok parent ∧ fs.Amended after touched ∧
    entryName key :: parent ∉ touched

theorem Spared.load (h : store.Spared fs after key) :
    store.load {} after key = store.load {} fs key := by
  rcases h with rfl | ⟨parent, touched, hhome, hafter, hspared⟩
  · rfl
  · have hentry := hafter.entryAt _ hspared
    have hsame : store.home after = .ok parent := hafter.way hhome
    rw [load_eq, load_eq, hhome, hsame]
    dsimp only
    rw [hentry]

theorem Spared.bare (h : store.Spared fs after key) (hbare : store.Bare fs key) :
    store.Bare after key := by
  rcases h with rfl | ⟨parent, touched, hhome, hafter, hspared⟩
  · exact hbare
  · intro data
    have hplace := place_of_home hhome
    rw [place_congr hafter.workingDirectory, hplace, hafter.entryAt _ hspared, ← hplace]
    exact hbare data

theorem Spared.holds (h : store.Spared fs after key) (hholds : store.Holds fs key persisted) :
    store.Holds after key persisted := by
  rcases h with rfl | ⟨parent, touched, hhome, hafter, hspared⟩
  · exact hholds
  · obtain ⟨found, data, hfound, hentry, hdata⟩ := hholds.file
    rw [hhome] at hfound
    cases hfound
    exact ⟨hholds.key_eq, hholds.exact, hholds.refusal, parent, data, hafter.way hhome,
      (hafter.entryAt _ hspared).trans hentry, hdata⟩

theorem Saved.spared {outcome : Except Error Unit} (h : store.Saved ready persisted outcome after)
    (hother : (exists failure, outcome = .error failure) ∨
      entryName key ≠ entryName persisted.key) : store.Spared ready after key := by
  have hdraft : forall parent : Location,
      entryName key :: parent ∉ [draftName persisted.key :: parent] := by
    intro parent hmem
    exact entryName_ne_draftName _ _ (List.cons.inj (List.mem_singleton.mp hmem)).left
  cases h with
  | untouched failure => exact Or.inl rfl
  | drafted failure hhome hafter => exact Or.inr ⟨_, _, hhome, hafter, hdraft _⟩
  | published hrefusal hhome hafter hentry hdata =>
      rcases hother with ⟨failure, hfailure⟩ | hother
      · cases hfailure
      · refine Or.inr ⟨_, _, hhome, hafter, fun hmem => ?_⟩
        rcases List.mem_cons.mp hmem with heq | hmem
        · exact hdraft _ (List.mem_singleton.mpr heq)
        · exact hother (List.cons.inj (List.mem_singleton.mp hmem)).left

theorem Removed.spared {outcome : Except Error Unit} {removed : String}
    (h : store.Removed fs removed outcome after)
    (hother : (exists failure, outcome = .error failure) ∨ entryName key ≠ entryName removed) :
    store.Spared fs after key := by
  cases h with
  | untouched failure => exact Or.inl rfl
  | missing hhome => exact Or.inl rfl
  | absent hhome hentry => exact Or.inl rfl
  | dropped hhome hafter hentry =>
      rcases hother with ⟨failure, hfailure⟩ | hother
      · cases hfailure
      · refine Or.inr ⟨_, _, hhome, hafter, fun hmem => ?_⟩
        exact hother (List.cons.inj (List.mem_singleton.mp hmem)).left

/-!
# Directories that are created
-/

theorem Bare.prepared (hready : store.Prepared fs ready) (h : store.Bare fs key) :
    store.Bare ready key := by
  intro data
  rw [place_congr hready.grown.workingDirectory, ne_eq, hready.grown.file_iff]
  exact h data

theorem Holds.prepared (hready : store.Prepared fs ready) (h : store.Holds fs key persisted) :
    store.Holds ready key persisted := by
  obtain ⟨parent, data, hhome, _, _⟩ := h.file
  have hsame : ready = fs := by
    apply hready.same
    rw [hhome]
    nofun
  rw [hsame]
  exact h

theorem Tracks.passed {saved : Option (PersistedEntry alpha)} (h : store.Tracks fs key saved)
    (hready : store.Prepared fs ready) (hspared : store.Spared ready after key) :
    store.Tracks after key saved := by
  cases saved with
  | none => exact hspared.bare (Bare.prepared hready h)
  | some persisted => exact hspared.holds (Holds.prepared hready h)

theorem prepared_perform (store : JsonStore alpha) (fs : FileSystem)
    (operation : Operation alpha) :
    exists ready, store.Prepared fs ready ∧
      ((exists faults persisted, operation = .save faults persisted) ∨ ready = fs) ∧
      forall key, ((exists failure, (store.perform fs operation).1 = .error failure) ∨
        entryName key ≠ entryName operation.key) ->
        store.Spared ready (store.perform fs operation).2 key := by
  have herror : forall {outcome : Except Error Unit},
      (exists failure, (outcome.map fun _ => (none : Option (PersistedEntry alpha))) =
        .error failure) -> exists failure, outcome = .error failure := by
    rintro (failure | _) ⟨cause, hcause⟩
    · exact ⟨failure, rfl⟩
    · cases hcause
  cases operation with
  | save faults persisted =>
      obtain ⟨ready, hready, hsaved⟩ := saved_save store faults fs persisted
      exact ⟨ready, hready, Or.inl ⟨faults, persisted, rfl⟩,
        fun key hother => hsaved.spared (hother.imp_left herror)⟩
  | load faults key =>
      exact ⟨fs, ⟨Grown.refl fs, fun _ => rfl⟩, Or.inr rfl, fun _ _ => Or.inl rfl⟩
  | remove faults key =>
      exact ⟨fs, ⟨Grown.refl fs, fun _ => rfl⟩, Or.inr rfl,
        fun other hother => (removed_remove store faults fs key).spared (hother.imp_left herror)⟩

/-!
# What a key loads to
-/

/-- What a key loads to is as it was before an operation, except where the directory of the
store was missing: a loading that found nothing may fail after a saving that created a part
of the directory. -/
def Kept (store : JsonStore alpha) (fs : FileSystem) (operation : Operation alpha)
    (key : String) : Prop :=
  store.load {} (store.perform fs operation).2 key = store.load {} fs key ∨
    ((exists faults persisted, operation = .save faults persisted) ∧
      fs.isDirectory store.directory = false ∧ store.load {} fs key = .ok none ∧
      exists failure, store.load {} (store.perform fs operation).2 key = .error failure)

theorem load_missing (key : String) (hhome : store.home fs = .error .notFound) :
    store.load {} fs key =
      match (store.entryPath key).refusal with
      | some cause => .error (ioFailure (store.entryPath key) cause)
      | none => .ok none := by
  rw [load_eq]
  cases (store.entryPath key).refusal with
  | some cause => rfl
  | none => simp only [hhome]

theorem kept_perform {saved : Option (PersistedEntry alpha)} {operation : Operation alpha}
    (h : store.Tracks fs key saved)
    (hother : (exists failure, (store.perform fs operation).1 = .error failure) ∨
      entryName key ≠ entryName operation.key) : store.Kept fs operation key := by
  obtain ⟨ready, hready, hsave, hspared⟩ := prepared_perform store fs operation
  have hload := (hspared key hother).load
  by_cases hhome : store.home fs = .error .notFound
  · rcases hsave with hsave | rfl
    · cases saved with
      | some persisted =>
          obtain ⟨parent, data, hparent, _, _⟩ := h.file
          rw [hhome] at hparent
          cases hparent
      | none =>
          have hbare := (hspared key hother).bare (Bare.prepared hready h)
          unfold Kept
          cases hrefusal : (store.entryPath key).refusal with
          | some cause =>
              left
              rw [load_eq, load_eq, hrefusal]
          | none =>
              have hnone := load_missing key hhome
              rw [hrefusal] at hnone
              rcases load_of_bare hbare with hsame | hfailed
              · exact Or.inl (hsame.trans hnone.symm)
              · have hdirectory : fs.isDirectory store.directory = false := by
                  apply isDirectory_of_way
                  intro parent hparent
                  have heq := hhome.symm.trans hparent
                  cases heq
                exact Or.inr ⟨hsave, hdirectory, hnone, hfailed⟩
    · exact Or.inl hload
  · rw [hready.same hhome] at hload
    exact Or.inl hload

/-!
# The map of a store
-/

section Step

variable {history : History alpha} {operation : Operation alpha} {outcome : Outcome alpha}

theorem lastSaved_of_error {failure : Error} :
    lastSaved key ((operation, .error failure) :: history) = lastSaved key history := by
  cases operation <;> rfl

theorem lastSaved_of_ne (hother : operation.key ≠ key) :
    lastSaved key ((operation, outcome) :: history) = lastSaved key history := by
  cases outcome with
  | error failure => exact lastSaved_of_error
  | ok found =>
      cases operation with
      | save faults persisted => exact if_neg hother
      | load faults loaded => rfl
      | remove faults removed => exact if_neg hother

theorem entryName_ne (hdistinct : ContentHash.ofString key = ContentHash.ofString operation.key ->
    key = operation.key) (hother : operation.key ≠ key) :
    entryName key ≠ entryName operation.key :=
  fun hname => hother (hdistinct (hash_of_entryName hname)).symm

theorem tracks_own {found : Option (PersistedEntry alpha)} (hkey : operation.key = key)
    (hexact : operation.Exact) (houtcome : (store.perform fs operation).1 = .ok found)
    (h : store.Tracks fs key (lastSaved key history)) :
    store.Tracks (store.perform fs operation).2 key
      (lastSaved key ((operation, .ok found) :: history)) := by
  have hok : forall {outcome : Except Error Unit},
      (outcome.map fun _ => (none : Option (PersistedEntry alpha))) = .ok found ->
        outcome = .ok () := by
    rintro (failure | _) hmap
    · cases hmap
    · rfl
  cases operation with
  | save faults persisted =>
      obtain ⟨ready, _, hsaved⟩ := saved_save store faults fs persisted
      change persisted.key = key at hkey
      rw [lastSaved, if_pos hkey, ← hkey]
      exact holds_of_published hsaved hexact (hok houtcome)
  | load faults loaded => exact h
  | remove faults removed =>
      have hremoved := removed_remove store faults fs removed
      change removed = key at hkey
      rw [lastSaved, if_pos hkey]
      rw [← hkey] at h ⊢
      exact bare_of_removed hremoved h (hok houtcome)

theorem tracks_perform
    (hdistinct : ContentHash.ofString key = ContentHash.ofString operation.key ->
      key = operation.key)
    (hexact : operation.Exact) (h : store.Tracks fs key (lastSaved key history)) :
    store.Tracks (store.perform fs operation).2 key
      (lastSaved key ((operation, (store.perform fs operation).1) :: history)) := by
  obtain ⟨ready, hready, _, hspared⟩ := prepared_perform store fs operation
  by_cases hkey : operation.key = key
  · cases houtcome : (store.perform fs operation).1 with
    | error failure =>
        rw [lastSaved_of_error]
        exact h.passed hready (hspared key (Or.inl ⟨failure, houtcome⟩))
    | ok found => exact tracks_own hkey hexact houtcome h
  · rw [lastSaved_of_ne hkey]
    exact h.passed hready (hspared key (Or.inr (entryName_ne hdistinct hkey)))

end Step

/-- A run keeps the file of every key in step with the map. -/
theorem tracks_run {start : FileSystem} {operations : List (Operation alpha)}
    (hstart : store.Bare start key)
    (hdistinct : forall operation, operation ∈ operations ->
      ContentHash.ofString key = ContentHash.ofString operation.key -> key = operation.key)
    (hexact : forall operation, operation ∈ operations -> operation.Exact) :
    store.Tracks (store.run start operations).2 key
      (lastSaved key (store.run start operations).1) := by
  induction operations with
  | nil => exact hstart
  | cons operation earlier ih =>
      have hpast := ih (fun used hused => hdistinct used (List.mem_cons_of_mem _ hused))
        fun used hused => hexact used (List.mem_cons_of_mem _ hused)
      exact tracks_perform (hdistinct operation List.mem_cons_self)
        (hexact operation List.mem_cons_self) hpast

/-!
# Atomic updates

Operations are performed in the file system that a run leaves which started without files of
the keys.  What the directory of the store is called does not matter, and neither does what
else is there.
-/

theorem run_refines_map (hcodec : store.codec.Faithful) {keys : List String}
    (hdistinct : forall key other, key ∈ keys -> other ∈ keys ->
      ContentHash.ofString key = ContentHash.ofString other -> key = other)
    {start before after : FileSystem} (hstart : forall key, key ∈ keys -> store.Bare start key)
    {earlier : List (Operation alpha)} {operation : Operation alpha}
    (hoperations : forall used, used ∈ operation :: earlier -> used.key ∈ keys ∧ used.Exact)
    {history : History alpha} {outcome : Outcome alpha}
    (hpast : store.run start earlier = (history, before))
    (hnow : store.perform before operation = (outcome, after)) :
    (forall faults key found, operation = .load faults key -> outcome = .ok found ->
      found = lastSaved key history) ∧
    (forall failure key, outcome = .error failure -> key ∈ keys ->
      store.Kept before operation key) ∧
    (forall key, key ∈ keys -> key ≠ operation.key -> store.Kept before operation key) ∧
    forall key persisted, key ∈ keys ->
      lastSaved key ((operation, outcome) :: history) = some persisted ->
        store.load {} after key = .ok (some persisted) := by
  have hshared : forall key, key ∈ keys -> forall used, used ∈ operation :: earlier ->
      ContentHash.ofString key = ContentHash.ofString used.key -> key = used.key :=
    fun key hkey used hused => hdistinct key used.key hkey (hoperations used hused).left
  have hbefore : forall key, key ∈ keys -> store.Tracks before key (lastSaved key history) := by
    intro key hkey
    have htracks := tracks_run (hstart key hkey)
      (fun used hused => hshared key hkey used (List.mem_cons_of_mem _ hused))
      fun used hused => (hoperations used (List.mem_cons_of_mem _ hused)).right
    rw [hpast] at htracks
    exact htracks
  have hafter : forall key, key ∈ keys ->
      store.Tracks after key (lastSaved key ((operation, outcome) :: history)) := by
    intro key hkey
    have htracks := tracks_perform (hshared key hkey operation List.mem_cons_self)
      (hoperations operation List.mem_cons_self).right (hbefore key hkey)
    rw [hnow] at htracks
    exact htracks
  have hsaved : forall {fs : FileSystem} {key : String} {persisted : PersistedEntry alpha}
      {found : Option (PersistedEntry alpha)}, store.Tracks fs key found ->
        found = some persisted -> store.load {} fs key = .ok (some persisted) := by
    rintro fs key persisted found htracks rfl
    exact load_of_holds hcodec htracks
  refine ⟨?_, ?_, ?_, ?_⟩
  · rintro faults key found rfl rfl
    have hkey := (hoperations _ List.mem_cons_self).left
    have hanswer : store.load faults before key = .ok found := congrArg Prod.fst hnow
    have hload := load_of_ok hanswer
    cases hlast : lastSaved key history with
    | some persisted =>
        rw [hsaved (hbefore key hkey) hlast] at hload
        exact (Except.ok.inj hload).symm
    | none =>
        have hbare := hbefore key hkey
        rw [hlast] at hbare
        rcases load_of_bare hbare with hnone | ⟨failure, hfailure⟩
        · rw [hnone] at hload
          exact (Except.ok.inj hload).symm
        · rw [hfailure] at hload
          cases hload
  · intro failure key hfailure hkey
    exact kept_perform (hbefore key hkey) (Or.inl ⟨failure, by rw [hnow, hfailure]⟩)
  · intro key hkey hother
    exact kept_perform (hbefore key hkey) (Or.inr (entryName_ne
      (hshared key hkey operation List.mem_cons_self) hother.symm))
  · intro key persisted hkey hlast
    exact hsaved (hafter key hkey) hlast

def lessonStore : JsonStore String :=
  ⟨⟨"c"⟩, Codec.string⟩

def emptyDisk : FileSystem :=
  FileSystem.new [] ⟨0, 0⟩

def firstEntry : PersistedEntry String :=
  ⟨"lesson", ⟨"first", 42, none, 0⟩, []⟩

def secondEntry : PersistedEntry String :=
  ⟨"lesson", ⟨"second", 43, none, 0⟩, []⟩

theorem run_refines_map_second :
    let before := (lessonStore.run emptyDisk [.save {} firstEntry]).2
    let failing := Operation.save { create := some "No space left on device" } secondEntry
    lessonStore.load {} (lessonStore.perform before failing).2 "lesson" =
      .ok (some firstEntry) := by
  intro before failing
  have hlast : lastSaved "lesson" ((failing, (lessonStore.perform before failing).1) ::
      (lessonStore.run emptyDisk [.save {} firstEntry]).1) = some firstEntry := by
    decide +kernel
  have hkeys : forall used, used ∈ [failing, .save {} firstEntry] ->
      used.key ∈ ["lesson"] ∧ used.Exact := by
    intro used hused
    rcases List.mem_cons.mp hused with rfl | hused
    · exact ⟨List.mem_cons_self, nofun⟩
    · rw [List.mem_singleton.mp hused]
      exact ⟨List.mem_cons_self, nofun⟩
  have hdistinct : forall key other, key ∈ ["lesson"] -> other ∈ ["lesson"] ->
      ContentHash.ofString key = ContentHash.ofString other -> key = other := by
    intro key other hkey hother _
    rw [List.mem_singleton.mp hkey, List.mem_singleton.mp hother]
  have hbare : forall key, key ∈ ["lesson"] -> lessonStore.Bare emptyDisk key := by
    intro key _ data
    nofun
  have hpast : lessonStore.run emptyDisk [.save {} firstEntry] =
      ((lessonStore.run emptyDisk [.save {} firstEntry]).1, before) := (Prod.eta _).symm
  have hnow : lessonStore.perform before failing = ((lessonStore.perform before failing).1,
      (lessonStore.perform before failing).2) := (Prod.eta _).symm
  obtain ⟨_, _, _, hloads⟩ :=
    run_refines_map Codec.faithful_string hdistinct hbare hkeys hpast hnow
  exact hloads "lesson" firstEntry List.mem_cons_self hlast

/-!
# A directory that cannot be created

The name of the directory is too long, but the directory above it can be created.
-/

@[irreducible] def longName : List Char :=
  List.replicate 256 'x'

def secludedStore : JsonStore String :=
  ⟨.ofChars ('a' :: '/' :: longName), Codec.string⟩

theorem mem_longName {c : Char} (h : c ∈ longName) : c = 'x' := by
  unfold longName at h
  exact List.eq_of_mem_replicate h

theorem length_longName : longName.length = 256 := by
  unfold longName
  exact List.length_replicate

theorem plain_longName : FilePath.Plain longName := by
  have hlength := length_longName
  refine ⟨fun hmem => absurd (mem_longName hmem) (by decide), ?_, ?_, ?_⟩ <;>
    · intro heq
      rw [heq] at hlength
      cases hlength

theorem long_longName : nameLimit < (String.ofList longName).utf8ByteSize := by
  have hascii : forall c, c ∈ longName -> c.utf8Size = 1 := by
    intro c hc
    rw [mem_longName hc]
    rfl
  rw [Text.utf8ByteSize_ofList hascii, length_longName]
  decide

theorem text_secludedStore :
    secludedStore.directory.text = String.ofList ('a' :: '/' :: longName) := by
  rfl

theorem chars_secludedStore : secludedStore.directory.chars = 'a' :: '/' :: longName :=
  FilePath.chars_ofChars _

theorem segments_secludedStore :
    secludedStore.directory.isAbsolute = false ∧
      secludedStore.directory.segments = [] ++ [['a']] ++ [longName] := by
  have hrelative : secludedStore.directory.isAbsolute = false := by
    rw [← Bool.not_eq_true, FilePath.isAbsolute_iff, chars_secludedStore]
    nofun
  refine ⟨hrelative, ?_⟩
  have hsplit := Text.splitAt_append '/' ['a'] longName
  rw [Text.splitAt_of_not_mem plain_longName.1] at hsplit
  rw [FilePath.segments_eq, FilePath.body, hrelative, if_neg Bool.false_ne_true,
    chars_secludedStore]
  exact hsplit

theorem endsIn_secludedStore :
    secludedStore.directory.EndsIn ["a"] (String.ofList longName) :=
  FilePath.endsIn_of_segments segments_secludedStore.right plain_longName

theorem base_secludedStore {fs : FileSystem} (h : fs.workingDirectory = []) :
    fs.base secludedStore.directory = [] := by
  unfold base
  rw [h, ite_self]

theorem home_secludedStore {fs : FileSystem} (h : fs.workingDirectory = []) :
    secludedStore.home fs =
      match fs.entryAt ["a"] with
      | none => .error .notFound
      | some (.file _) => .error .notADirectory
      | some .directory => .error .nameTooLong := by
  have habove : advance [] "a" = .ok ["a"] := rfl
  have hlong : advance ["a"] (String.ofList longName) = .error .nameTooLong := by
    unfold advance
    rw [if_neg endsIn_secludedStore.plain.1, if_neg endsIn_secludedStore.plain.2,
      if_pos long_longName]
  have hroot : fs.entryAt [] = some .directory := rfl
  unfold home way
  rw [base_secludedStore h, endsIn_secludedStore.names_eq]
  simp only [List.cons_append, List.nil_append]
  rw [descend_cons, hroot]
  dsimp only
  rw [habove]
  show fs.descend ["a"] [String.ofList longName, "."] = _
  rw [descend_cons]
  cases fs.entryAt ["a"] with
  | none => rfl
  | some entry =>
      cases entry with
      | file data => rfl
      | directory =>
          dsimp only
          rw [hlong]
          rfl

theorem size_secludedStore : secludedStore.directory.text.utf8ByteSize = 258 := by
  have hascii : forall c, c ∈ 'a' :: '/' :: longName -> c.utf8Size = 1 := by
    simp only [List.mem_cons]
    rintro c (rfl | rfl | hc)
    · rfl
    · rfl
    · rw [mem_longName hc]
      rfl
  rw [text_secludedStore, Text.utf8ByteSize_ofList hascii, List.length_cons, List.length_cons,
    length_longName]

theorem clean_secludedStore : '\x00' ∉ secludedStore.directory.chars := by
  rw [chars_secludedStore]
  simp only [List.mem_cons]
  rintro (heq | heq | hmem)
  · cases heq
  · cases heq
  · cases mem_longName hmem

theorem refusal_secludedStore : secludedStore.directory.refusal = none := by
  unfold FilePath.refusal
  rw [if_neg (by simpa using clean_secludedStore), size_secludedStore, if_neg (by decide),
    if_neg (by simpa using endsIn_secludedStore.chars_ne_nil)]

theorem parent_secludedStore : secludedStore.directory.parent = some (.ofChars ['a']) := by
  have habove : FilePath.Plain ['a'] := by
    unfold FilePath.Plain
    decide
  have hparent := FilePath.parent_of_segments segments_secludedStore.right habove plain_longName
  rw [segments_secludedStore.left] at hparent
  exact hparent

theorem makeDirectories_secludedStore :
    emptyDisk.makeDirectories secludedStore.directory =
      (emptyDisk.put ["a"] .directory, some .nameTooLong) := by
  have hbefore : emptyDisk.descend [] ["a", "."] = .error .notFound := rfl
  have hmissing : emptyDisk.makeDirectory secludedStore.directory = .error .notFound := by
    rw [makeDirectory_long endsIn_secludedStore long_longName, folder, refusal_secludedStore,
      base_secludedStore rfl]
    dsimp only [List.cons_append, List.nil_append]
    rw [hbefore]
    rfl
  have hmade : emptyDisk.makeDirectory (.ofChars ['a']) =
      .ok (emptyDisk.put ["a"] .directory) := rfl
  have hafter : (emptyDisk.put ["a"] .directory).descend [] ["a", "."] = .ok ["a"] := rfl
  have htoolong : (emptyDisk.put ["a"] .directory).makeDirectory secludedStore.directory =
      .error .nameTooLong := by
    rw [makeDirectory_long endsIn_secludedStore long_longName, folder, refusal_secludedStore,
      base_secludedStore rfl]
    dsimp only [List.cons_append, List.nil_append]
    rw [hafter]
    rfl
  have hdirectory : (emptyDisk.put ["a"] .directory).isDirectory secludedStore.directory =
      false := by
    apply isDirectory_of_way
    intro place hplace
    have heq := (home_secludedStore rfl).symm.trans hplace
    cases heq
  have hlength : secludedStore.directory.chars.length = 257 + 1 := by
    rw [chars_secludedStore, List.length_cons, List.length_cons, length_longName]
  have hancestors : secludedStore.directory.ancestors =
      .ofChars ['a'] :: FilePath.ancestorsUpTo 257 (.ofChars ['a']) := by
    rw [FilePath.ancestors, hlength, FilePath.ancestorsUpTo, parent_secludedStore]
  rw [makeDirectories_below endsIn_secludedStore.chars_ne_nil (by decide) hancestors hmissing
    hmade, makeOrFind, htoolong]
  dsimp only
  rw [hdirectory]
  rfl

/-- After a saving that failed, the loading of a key fails that found nothing before. -/
theorem failed_save_hides :
    secludedStore.codec.Faithful ∧ secludedStore.Bare emptyDisk "lesson" ∧
      secludedStore.load {} emptyDisk "lesson" = .ok none ∧
      (exists failure, (secludedStore.perform emptyDisk (.save {} firstEntry)).1 =
        .error failure) ∧
      exists failure, secludedStore.load {}
        (secludedStore.perform emptyDisk (.save {} firstEntry)).2 "lesson" = .error failure := by
  have hrefusal : (secludedStore.entryPath "lesson").refusal = none :=
    refusal_entryPath _ _ clean_secludedStore (by rw [size_secludedStore]; decide)
  have hsave : secludedStore.save {} emptyDisk firstEntry =
      (.error (ioFailure secludedStore.directory .nameTooLong), emptyDisk.put ["a"] .directory) :=
    save_of_unmade makeDirectories_secludedStore
  have hbare : secludedStore.Bare emptyDisk "lesson" := by
    intro data
    nofun
  rw [perform, hsave]
  refine ⟨Codec.faithful_string, hbare, ?_, ⟨_, rfl⟩, ?_⟩
  · rw [load_eq, hrefusal, home_secludedStore rfl]
    rfl
  · rw [load_eq, hrefusal, home_secludedStore rfl]
    exact ⟨_, rfl⟩

end JsonStore
end LessonPress

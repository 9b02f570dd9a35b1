import LessonPress.Proofs.Cache.Contents
import Mathlib.Data.List.Forall2

/-!
# Memory and store

## What a cache holds of a key, and what the store gives for it

As long as the calls that work on a key do not overlap, its entry in memory is its entry
in the store, and each of the tracked files differs from the stored one in its
fingerprint at most.  An entry whose own file could not be captured has no list of
tracked files in memory and an empty one in the store.
-/

namespace LessonPress

namespace TrackedFile

/-- The same file with the same content, perhaps under another fingerprint. -/
structure Follows (file stored : TrackedFile) : Prop where
  path : file.path = stored.path
  contentHash : file.contentHash = stored.contentHash
  missing : file.missing = stored.missing

theorem Follows.refl (file : TrackedFile) : file.Follows file :=
  ⟨rfl, rfl, rfl⟩

theorem Follows.refresh {file stored updated : TrackedFile} {current : Fingerprint}
    {found : Except IoError ByteArray} (h : file.Follows stored)
    (hpath : current.path = file.path) (hmissing : file.missing = false)
    (hupdated : file.refresh current found = some updated) : updated.Follows stored := by
  rw [(refresh_eq_some hupdated).left]
  constructor
  · exact hpath.trans h.path
  · exact h.contentHash
  · exact hmissing.symm.trans h.missing

end TrackedFile

def FilesMatch (records : Option (List TrackedFile)) (stored : List TrackedFile) : Prop :=
  match records with
  | none => stored = []
  | some files => List.Forall₂ TrackedFile.Follows files stored

theorem filesMatch_self (files : List TrackedFile) : FilesMatch (some files) files :=
  List.forall₂_same.mpr fun file _ => TrackedFile.Follows.refl file

theorem forall₂_replace {relation : TrackedFile -> TrackedFile -> Prop}
    {before after stored : List TrackedFile} {file updated : TrackedFile}
    (h : List.Forall₂ relation (before ++ file :: after) stored)
    (hupdated : forall other, relation file other -> relation updated other) :
    List.Forall₂ relation (before ++ updated :: after) stored := by
  induction before generalizing stored with
  | nil =>
      cases h with
      | cons hfile hafter => exact .cons (hupdated _ hfile) hafter
  | cons first before ih =>
      cases h with
      | cons hfirst hrest => exact .cons hfirst (ih hrest)

section Mirrors

variable {sigma alpha : Type}

def Store.found (store : Store sigma alpha) (key : String) (disk : sigma) :
    Except Error (Option (PersistedEntry alpha)) :=
  (store.load key disk).1

def Cache.Mirrors (cache : Cache alpha) (key : String)
    (found : Except Error (Option (PersistedEntry alpha))) : Prop :=
  forall entry, cache.entries.find? key = some entry ->
    exists persisted, found = .ok (some persisted) ∧ persisted.entry = entry ∧
      FilesMatch (cache.records.find? key) persisted.tracked

def Stored (found : Except Error (Option (PersistedEntry alpha))) (files : List TrackedFile) :
    Prop :=
  exists persisted, found = .ok (some persisted) ∧ FilesMatch (some files) persisted.tracked

def Call.Mirrors (call : Call alpha) (key : String) (cache : Cache alpha)
    (found : Except Error (Option (PersistedEntry alpha))) : Prop :=
  match call.phase with
  | .restoring loaded => call.keyText = key -> loaded = found
  | .scanning _ checked _ pending => call.keyText = key -> Stored found (checked ++ pending)
  | .hashing _ checked file current pending =>
      call.keyText = key -> current.path = file.path ∧ file.missing = false ∧
        Stored found (checked ++ file :: pending)
  | .saving _ persisted =>
      persisted.key = call.keyText ∧
        (call.keyText = key -> cache.entries.find? key = some persisted.entry ∧
          FilesMatch (cache.records.find? key) persisted.tracked)
  | .removing _ _ previous => previous = key -> cache.entries.find? key = none
  | _ => True

def Call.Saves (call : Call alpha) (persisted : PersistedEntry alpha) : Prop :=
  exists ticket, call.phase = .saving ticket persisted

def Call.Removes (call : Call alpha) (key : String) : Prop :=
  exists ticket value, call.phase = .removing ticket value key

def Call.Concerns (call : Call alpha) (key : String) (cache : Cache alpha) : Prop :=
  call.keyText = key ∨
    match call.phase with
    | .saved _ _ _ => cache.currentKeys.find? call.key.path.components = some key
    | .removing _ _ previous => previous = key
    | _ => False

theorem Cache.Mirrors.of_same {cache next : Cache alpha} {key : String}
    {found : Except Error (Option (PersistedEntry alpha))} (h : cache.Mirrors key found)
    (hentries : next.entries.find? key = cache.entries.find? key)
    (hrecords : next.records.find? key = cache.records.find? key) : next.Mirrors key found := by
  intro entry hentry
  rw [hrecords]
  exact h entry (hentries.symm.trans hentry)

theorem Cache.mirrors_of_none {cache : Cache alpha} {key : String}
    (found : Except Error (Option (PersistedEntry alpha)))
    (h : cache.entries.find? key = none) : cache.Mirrors key found := by
  intro entry hentry
  rw [h] at hentry
  cases hentry

theorem Call.Mirrors.frame {call : Call alpha} {key : String} {cache next : Cache alpha}
    {found : Except Error (Option (PersistedEntry alpha))} (h : call.Mirrors key cache found)
    (hentries : next.entries.find? key = cache.entries.find? key)
    (hrecords : next.records.find? key = cache.records.find? key) :
    call.Mirrors key next found := by
  unfold Mirrors at h ⊢
  rw [hentries, hrecords]
  exact h

theorem Call.Mirrors.of_not_concerns {call : Call alpha} {key : String} {cache : Cache alpha}
    {found : Except Error (Option (PersistedEntry alpha))} (h : call.Mirrors key cache found)
    (hnot : ¬ call.Concerns key cache) (next : Cache alpha)
    (other : Except Error (Option (PersistedEntry alpha))) : call.Mirrors key next other := by
  unfold Concerns at hnot
  have hkey : call.keyText ≠ key := fun hkey => hnot (Or.inl hkey)
  unfold Mirrors at h ⊢
  cases hphase : call.phase with
  | restoring loaded => exact fun hsame => absurd hsame hkey
  | scanning entry checked touched pending => exact fun hsame => absurd hsame hkey
  | hashing entry checked file current pending => exact fun hsame => absurd hsame hkey
  | saving ticket persisted =>
      rw [hphase] at h
      exact ⟨h.left, fun hsame => absurd hsame hkey⟩
  | removing ticket value previous =>
      rw [hphase] at hnot
      exact fun hsame => absurd (Or.inr hsame) hnot
  | _ => exact trivial

end Mirrors

namespace Call

variable {sigma alpha : Type} {setup : CacheSetup sigma alpha} {now : UInt64}
  {call : Call alpha} {scene : Scene sigma alpha} {key : String}
  {found : Except Error (Option (PersistedEntry alpha))}

theorem stored_of_mirrors (hmemory : scene.cache.Mirrors key found) {entry : CacheEntry alpha}
    (hentry : scene.cache.entries.find? key = some entry) {files : List TrackedFile}
    (hrecords : scene.cache.records.find? key = some files) : Stored found files := by
  rcases hmemory entry hentry with ⟨persisted, hfound, _, hfiles⟩
  rw [hrecords] at hfiles
  exact ⟨persisted, hfound, hfiles⟩

theorem openCall_mirrors (hmemory : call.keyText = key -> scene.cache.Mirrors key found)
    (cache : Cache alpha) : (call.openCall setup now scene).1.Mirrors key cache found := by
  rcases openCall_sought setup now call scene with ⟨phase, hnext, hsought⟩
  rw [hnext]
  cases hsought with
  | scanning hlisted =>
      intro hkey
      change call.keyText = key at hkey
      rw [← hkey] at hmemory
      exact stored_of_mirrors (hmemory rfl) hlisted.left hlisted.right
  | _ => exact trivial

theorem restore_mirrors {loaded : Except Error (Option (PersistedEntry alpha))}
    (hloaded : call.keyText = key -> loaded = found)
    (hmemory : call.keyText = key -> scene.cache.Mirrors key found) (cache : Cache alpha) :
    (call.restore setup now scene loaded).1.Mirrors key cache found := by
  rcases restore_sought setup now call scene loaded with ⟨phase, hnext, hsought⟩
  rw [hnext]
  cases hsought with
  | scanning hlisted =>
      intro hkey
      change call.keyText = key at hkey
      rcases hlisted with hlisted | ⟨persisted, hpersisted, _, hfiles⟩
      · rw [← hkey] at hmemory
        exact stored_of_mirrors (hmemory rfl) hlisted.left hlisted.right
      · rw [← hfiles]
        exact ⟨persisted, (hloaded hkey).symm.trans hpersisted, filesMatch_self persisted.tracked⟩
  | _ => exact trivial

theorem scan_mirrors [Disk sigma] {entry : CacheEntry alpha} {checked pending : List TrackedFile}
    (touched : Bool) (hstored : call.keyText = key -> Stored found (checked ++ pending))
    (cache : Cache alpha) :
    (call.scan scene entry checked touched pending).1.Mirrors key cache found := by
  cases pending with
  | nil => exact trivial
  | cons file pending =>
      unfold scan
      dsimp only
      split
      · intro hkey
        rw [List.append_assoc]
        exact hstored hkey
      · rename_i current hglance
        intro hkey
        have hmoved := TrackedFile.glance_moved hglance
        exact ⟨Fingerprint.path_of_read hmoved.left, hmoved.right, hstored hkey⟩
      · exact trivial

theorem compare_mirrors [Disk sigma] {entry : CacheEntry alpha}
    {checked pending : List TrackedFile} {file : TrackedFile} {current : Fingerprint}
    (hstored : call.keyText = key -> current.path = file.path ∧ file.missing = false ∧
      Stored found (checked ++ file :: pending)) (cache : Cache alpha) :
    (call.compare scene entry checked file current pending).1.Mirrors key cache found := by
  unfold compare
  split
  · rename_i updated hupdated
    intro hkey
    rcases hstored hkey with ⟨hpath, hmissing, persisted, hfound, hfiles⟩
    refine ⟨persisted, hfound, ?_⟩
    rw [List.append_assoc]
    exact forall₂_replace hfiles fun stored hfollows => hfollows.refresh hpath hmissing hupdated
  · exact trivial

theorem supersede_mirrors (ticket : Ticket alpha) (value : alpha) (outcome : Except Error Unit) :
    (call.supersede scene ticket value outcome).1.Mirrors key
      (call.supersede scene ticket value outcome).2.cache found := by
  unfold supersede
  dsimp only
  split
  · exact trivial
  · split
    · exact trivial
    · intro hprevious
      rw [hprevious]
      exact Table.find?_erase_self _ key

section Step

variable [Disk sigma] {store : Store sigma alpha}

theorem step_call_mirrors (hstore : setup.store = some store)
    (hcall : call.Mirrors key scene.cache (store.found key scene.disk))
    (hmemory : call.keyText = key -> (exists persisted, call.Saves persisted) ∨
      scene.cache.Mirrors key (store.found key scene.disk))
    (hkept : (forall persisted, ¬ call.Saves persisted) -> ¬ call.Removes key ->
      store.found key (call.step setup now scene).2.disk = store.found key scene.disk) :
    (call.step setup now scene).1.Mirrors key (call.step setup now scene).2.cache
      (store.found key (call.step setup now scene).2.disk) := by
  -- outside the steps that write to the store, it gives what it gave before
  have hquiet : (forall ticket persisted, call.phase ≠ .saving ticket persisted) ->
      (forall ticket value previous, call.phase ≠ .removing ticket value previous) ->
      store.found key (call.step setup now scene).2.disk = store.found key scene.disk ∧
        (call.keyText = key -> scene.cache.Mirrors key (store.found key scene.disk)) := by
    intro hsaving hremoving
    constructor
    · apply hkept
      · rintro persisted ⟨ticket, hphase⟩
        exact hsaving ticket persisted hphase
      · rintro ⟨ticket, value, hphase⟩
        exact hremoving ticket value key hphase
    · intro hkey
      rcases hmemory hkey with ⟨persisted, ticket, hphase⟩ | hmemory
      · exact absurd hphase (hsaving ticket persisted)
      · exact hmemory
  unfold Mirrors at hcall
  cases hphase : call.phase with
  | opening =>
      have hq := hquiet (by simp [hphase]) (by simp [hphase])
      rw [hq.left]
      unfold step
      rw [hphase]
      exact openCall_mirrors hq.right _
  | loading =>
      have hq := hquiet (by simp [hphase]) (by simp [hphase])
      rw [hq.left]
      unfold step
      rw [hphase]
      dsimp only [load]
      rw [hstore]
      intro hkey
      change call.keyText = key at hkey
      rw [hkey]
      rfl
  | restoring loaded =>
      have hq := hquiet (by simp [hphase]) (by simp [hphase])
      rw [hq.left]
      rw [hphase] at hcall
      unfold step
      rw [hphase]
      exact restore_mirrors hcall hq.right _
  | scanning entry checked touched pending =>
      have hq := hquiet (by simp [hphase]) (by simp [hphase])
      rw [hq.left]
      rw [hphase] at hcall
      unfold step
      rw [hphase]
      exact scan_mirrors touched hcall _
  | hashing entry checked file current pending =>
      have hq := hquiet (by simp [hphase]) (by simp [hphase])
      rw [hq.left]
      rw [hphase] at hcall
      unfold step
      rw [hphase]
      exact compare_mirrors hcall _
  | missed stale seen =>
      unfold step
      rw [hphase]
      dsimp only [enter]
      split
      · exact trivial
      · split <;> exact trivial
  | capturing ticket =>
      unfold step
      rw [hphase]
      dsimp only [capture]
      split <;> exact trivial
  | reading ticket fingerprint =>
      unfold step
      rw [hphase]
      dsimp only [read]
      split <;> exact trivial
  | computing ticket primary =>
      unfold step
      rw [hphase]
      unfold Mirrors
      rw [hphase]
      exact trivial
  | saving ticket persisted =>
      unfold step
      rw [hphase]
      dsimp only [save]
      rw [hstore]
      exact trivial
  | saved ticket value outcome =>
      unfold step
      rw [hphase]
      exact supersede_mirrors ticket value outcome
  | removing ticket value previous =>
      unfold step
      rw [hphase]
      exact trivial
  | removed ticket value previous outcome =>
      unfold step
      rw [hphase]
      exact trivial
  | waiting ticket =>
      unfold step
      rw [hphase]
      dsimp only [receive]
      split
      · unfold Mirrors
        rw [hphase]
        exact trivial
      · split <;> exact trivial
  | done result =>
      unfold step
      rw [hphase]
      unfold Mirrors
      rw [hphase]
      exact trivial

theorem step_cache_mirrors
    (hcall : call.Mirrors key scene.cache (store.found key scene.disk))
    (hmemory : (exists persisted, call.Saves persisted ∧ persisted.key = key) ∨
      scene.cache.Mirrors key (store.found key scene.disk))
    (hsaved : forall persisted, call.Saves persisted -> persisted.key = key ->
      store.found key (call.step setup now scene).2.disk = .ok (some persisted))
    (hkept : (forall persisted, call.Saves persisted -> persisted.key ≠ key) ->
      ¬ call.Removes key ->
      store.found key (call.step setup now scene).2.disk = store.found key scene.disk) :
    (call.step setup now scene).2.cache.Mirrors key
      (store.found key (call.step setup now scene).2.disk) := by
  have hturn := step_turn setup now call scene
  unfold Mirrors at hcall
  -- the store may change before memory does
  have hbefore : scene.cache.Mirrors key
      (store.found key (call.step setup now scene).2.disk) := by
    by_cases hsaves : exists persisted, call.Saves persisted ∧ persisted.key = key
    · rcases hsaves with ⟨persisted, hsaves, hkey⟩
      rw [hsaved persisted hsaves hkey]
      rcases hsaves with ⟨ticket, hphase⟩
      rw [hphase] at hcall
      have hheld := hcall.right (hcall.left.symm.trans hkey)
      intro entry hentry
      rw [hheld.left] at hentry
      exact ⟨persisted, rfl, Option.some.inj hentry, hheld.right⟩
    · by_cases hremoves : call.Removes key
      · rcases hremoves with ⟨ticket, value, hphase⟩
        rw [hphase] at hcall
        exact Cache.mirrors_of_none _ (hcall rfl)
      · rw [hkept (fun persisted hsave hkey => hsaves ⟨persisted, hsave, hkey⟩) hremoves]
        exact hmemory.resolve_left hsaves
  have hfound : (forall persisted, ¬ call.Saves persisted) -> ¬ call.Removes key ->
      store.found key (call.step setup now scene).2.disk = store.found key scene.disk :=
    fun hsaves hremoves => hkept (fun persisted hsave => absurd hsave (hsaves persisted)) hremoves
  cases hturn with
  | same hentries hrecords =>
      apply hbefore.of_same
      · rw [hentries]
      · rw [hrecords]
  | dropped other _ _ hentries hrecords =>
      by_cases hkey : key = other
      · apply Cache.mirrors_of_none
        rw [hentries, hkey]
        exact Table.find?_erase_self _ other
      · apply hbefore.of_same
        · rw [hentries]
          exact Table.find?_erase_of_ne _ hkey
        · rw [hrecords]
          exact Table.find?_erase_of_ne _ hkey
  | restored persisted hphase hentries hrecords =>
      by_cases hkey : key = call.keyText
      · rw [hphase] at hcall
        rw [hfound (by rintro other ⟨ticket, hother⟩; rw [hphase] at hother; cases hother)
          (by rintro ⟨ticket, value, hother⟩; rw [hphase] at hother; cases hother),
          ← hcall hkey.symm]
        intro entry hentry
        rw [hentries, hkey, Table.find?_insert_self] at hentry
        refine ⟨persisted, rfl, Option.some.inj hentry, ?_⟩
        rw [hrecords, hkey, Table.find?_insert_self]
        exact filesMatch_self persisted.tracked
      · apply hbefore.of_same
        · rw [hentries]
          exact Table.find?_insert_of_ne _ _ hkey
        · rw [hrecords]
          exact Table.find?_insert_of_ne _ _ hkey
  | refreshed other checked hphase hentries hrecords =>
      by_cases hkey : key = call.keyText
      · rw [hphase] at hcall
        have hsame := hfound
          (by rintro other ⟨ticket, hother⟩; rw [hphase] at hother; cases hother)
          (by rintro ⟨ticket, value, hother⟩; rw [hphase] at hother; cases hother)
        rw [hsame] at hbefore ⊢
        rcases hcall hkey.symm with ⟨stored, hstored, hfiles⟩
        intro entry hentry
        rw [hentries] at hentry
        rcases hbefore entry hentry with ⟨persisted, hpersisted, hentryEq, _⟩
        rw [hstored] at hpersisted
        cases hpersisted
        refine ⟨stored, hstored, hentryEq, ?_⟩
        rw [hrecords, hkey, Table.find?_insert_self]
        rw [List.append_nil] at hfiles
        exact hfiles
      · apply hbefore.of_same
        · rw [hentries]
        · rw [hrecords]
          exact Table.find?_insert_of_ne _ _ hkey

theorem step_keeps (setup : CacheSetup sigma alpha) (now : UInt64)
    (hnot : ¬ call.Concerns key scene.cache) :
    (call.step setup now scene).2.cache.entries.find? key = scene.cache.entries.find? key ∧
      (call.step setup now scene).2.cache.records.find? key = scene.cache.records.find? key := by
  have hkey : key ≠ call.keyText := fun hkey => hnot (Or.inl hkey.symm)
  cases step_turn setup now call scene with
  | same hentries hrecords =>
      rw [hentries, hrecords]
      exact ⟨rfl, rfl⟩
  | dropped other hphase hcurrent hentries hrecords =>
      have hother : key ≠ other := by
        intro hsame
        rcases hphase with ⟨ticket, value, outcome, hphase⟩
        apply hnot
        unfold Concerns
        rw [hphase, hsame]
        exact Or.inr hcurrent
      rw [hentries, hrecords]
      exact ⟨Table.find?_erase_of_ne _ hother, Table.find?_erase_of_ne _ hother⟩
  | restored persisted _ hentries hrecords =>
      rw [hentries, hrecords]
      exact ⟨Table.find?_insert_of_ne _ _ hkey, Table.find?_insert_of_ne _ _ hkey⟩
  | refreshed entry checked _ hentries hrecords =>
      rw [hentries, hrecords]
      exact ⟨rfl, Table.find?_insert_of_ne _ _ hkey⟩

end Step

theorem complete_keeps (now : UInt64) (scene : Scene sigma alpha)
    (outcome : Except Error (Computed alpha)) (hkey : key ≠ call.keyText) :
    (call.complete now scene outcome).2.cache.entries.find? key =
        scene.cache.entries.find? key ∧
      (call.complete now scene outcome).2.cache.records.find? key =
        scene.cache.records.find? key := by
  unfold complete
  split
  · rename_i ticket primary hphase
    cases outcome with
    | error cause => exact ⟨rfl, rfl⟩
    | ok computed =>
        constructor
        · exact Table.find?_insert_of_ne _ _ hkey
        · cases primary with
          | none => exact Table.find?_erase_of_ne _ hkey
          | some file => exact Table.find?_insert_of_ne _ _ hkey
  · exact ⟨rfl, rfl⟩

theorem complete_mirrors (now : UInt64) (outcome : Except Error (Computed alpha))
    (hmemory : call.keyText = key -> scene.cache.Mirrors key found)
    (hphase : exists ticket primary, call.phase = .computing ticket primary) :
    (call.complete now scene outcome).1.Mirrors key (call.complete now scene outcome).2.cache
        found ∧
      (call.keyText = key -> (exists persisted,
          (call.complete now scene outcome).1.Saves persisted ∧ persisted.key = key) ∨
        (call.complete now scene outcome).2.cache.Mirrors key found) := by
  rcases hphase with ⟨ticket, primary, hphase⟩
  unfold complete
  rw [hphase]
  cases outcome with
  | error cause =>
      refine ⟨trivial, ?_⟩
      intro hkey
      exact Or.inr ((hmemory hkey).of_same rfl rfl)
  | ok computed =>
      dsimp only
      refine ⟨⟨rfl, ?_⟩, ?_⟩
      · intro hkey
        change call.keyText = key at hkey
        subst hkey
        constructor
        · exact Table.find?_insert_self ..
        · cases primary with
          | none =>
              change FilesMatch ((scene.cache.records.erase call.keyText).find? call.keyText) []
              rw [Table.find?_erase_self]
              rfl
          | some file =>
              change FilesMatch
                ((scene.cache.records.insert call.keyText
                  (trackedFiles (some file) computed.dependencies)).find? call.keyText)
                (trackedFiles (some file) computed.dependencies)
              rw [Table.find?_insert_self]
              exact filesMatch_self _
      · intro hkey
        exact Or.inl ⟨_, ⟨ticket, rfl⟩, hkey⟩

end Call
end LessonPress

import LessonPress.Proofs.Cache.Genuine
import Mathlib.Tactic.IntervalCases

/-!
# Restarts

## A new cache on the store of an old one

After a run, the same lookup is made through the cache of the run and through a new
cache on the same disk.  Both decide by the same entry, and by tracked files that differ
in their fingerprints only.  There is one exception: an entry whose own file could not
be captured is never served from memory, but always from the store.
-/

namespace LessonPress

namespace Scene

variable {sigma alpha : Type} [Disk sigma] {setup : CacheSetup sigma alpha} {now : UInt64}
  {key : CacheKey} {options : CallOptions} {scene : Scene sigma alpha}
  {store : Store sigma alpha}

def reopened (scene : Scene sigma alpha) : Scene sigma alpha :=
  ⟨.empty, scene.disk, []⟩

theorem decision_reopened (htrust : setup.trust = false) (hforce : options.forceFresh = false)
    (hstore : setup.store = some store)
    (hload : Disk.files (store.load key.text scene.disk).2 = Disk.files scene.disk)
    {persisted : PersistedEntry alpha}
    (hfound : store.found key.text scene.disk = .ok (some persisted)) :
    scene.reopened.decision setup now key options =
      persisted.entry.decision now (Disk.files scene.disk) (some persisted.tracked) := by
  have hdisk : scene.reopened.disk = scene.disk := rfl
  rw [decision_of_none htrust hforce hstore rfl, hdisk]
  unfold Store.found at hfound
  rcases hloaded : store.load key.text scene.disk with ⟨loaded, disk⟩
  rw [hloaded] at hfound hload
  change loaded = _ at hfound
  rw [hfound]
  change persisted.entry.decision now (Disk.files disk) (some persisted.tracked) = _
  rw [show Disk.files disk = Disk.files scene.disk from hload]

end Scene

/-!
# A store of texts
-/

structure TextShelf where
  files : FileSystem
  texts : Table String String

namespace TextShelf

variable {alpha : Type}

instance : Disk TextShelf where
  files := TextShelf.files
  withFiles shelf fs := { shelf with files := fs }

def store (json : JsonStore alpha) : Store TextShelf alpha where
  load key shelf :=
    let loaded :=
      match shelf.texts.find? key with
      | none => .ok none
      | some text =>
          match json.readEntry text.toUTF8 with
          | none => .error JsonStore.malformed
          | some persisted => if persisted.key = key then .ok (some persisted) else .ok none
    (loaded, shelf)
  save persisted shelf :=
    (.ok (), { shelf with texts := shelf.texts.insert persisted.key (json.entryText persisted) })
  remove key shelf :=
    (.ok (), { shelf with texts := shelf.texts.erase key })

theorem lawful_store (json : JsonStore alpha) : (store json).Lawful json where
  load := fun _ _ => rfl
  save := by
    intro key persisted shelf
    unfold Store.found store
    dsimp only
    by_cases hkey : key = persisted.key
    · rw [if_pos hkey, hkey, Table.find?_insert_self]
      rfl
    · rw [if_neg hkey, Table.find?_insert_of_ne _ _ hkey]
  remove := by
    intro key other shelf
    unfold Store.found store
    dsimp only
    by_cases hkey : key = other
    · rw [if_pos hkey, hkey, Table.find?_erase_self]
    · rw [if_neg hkey, Table.find?_erase_of_ne _ hkey]

end TextShelf

namespace Crowd

variable {sigma alpha : Type} [Disk sigma]

/-- A lookup through the cache of a run and through a new one, at the end of the run. -/
structure Restarted (setup : CacheSetup sigma alpha) (store : Store sigma alpha)
    (now : UInt64) (key : CacheKey) (options : CallOptions) (scene : Scene sigma alpha) :
    Prop where
  absent : scene.cache.entries.find? key.text = none ->
    scene.reopened.decision setup now key options = scene.decision setup now key options
  expired : forall entry, scene.cache.entries.find? key.text = some entry ->
    entry.isFreshAt now = false ->
    scene.reopened.decision setup now key options = scene.decision setup now key options
  untracked : forall entry, scene.cache.entries.find? key.text = some entry ->
    entry.isFreshAt now = true -> scene.cache.records.find? key.text = none ->
    scene.decision setup now key options = .missed none (some entry.created) ∧
      scene.reopened.decision setup now key options = .done (.ok entry.value)
  tracked : forall entry files, scene.cache.entries.find? key.text = some entry ->
    entry.isFreshAt now = true -> scene.cache.records.find? key.text = some files ->
    exists persisted, store.found key.text scene.disk = .ok (some persisted) ∧
      List.Forall₂ TrackedFile.Follows files persisted.tracked ∧
      scene.decision setup now key options =
        entry.verdict (FileRecords.checkList (Disk.files scene.disk) files).isOk ∧
      scene.reopened.decision setup now key options =
        entry.verdict (FileRecords.checkList (Disk.files scene.disk) persisted.tracked).isOk

theorem restarted_of_mirrors {setup : CacheSetup sigma alpha} {store : Store sigma alpha}
    {now : UInt64} {key : CacheKey} {options : CallOptions} {scene : Scene sigma alpha}
    (htrust : setup.trust = false) (hforce : options.forceFresh = false)
    (hstore : setup.store = some store)
    (hload : Disk.files (store.load key.text scene.disk).2 = Disk.files scene.disk)
    (hmirrors : scene.cache.Mirrors key.text (store.found key.text scene.disk)) :
    Restarted setup store now key options scene := by
  constructor
  case absent =>
    intro hentry
    rw [Scene.decision_of_none htrust hforce hstore hentry,
      Scene.decision_of_none htrust hforce hstore rfl]
    rfl
  case expired =>
    intro entry hentry hfresh
    rcases hmirrors entry hentry with ⟨persisted, hfound, hsame, _⟩
    rw [Scene.decision_of_entry htrust hforce hentry,
      Scene.decision_reopened htrust hforce hstore hload hfound, hsame]
    unfold CacheEntry.decision
    rw [hfresh]
    rfl
  case untracked =>
    intro entry hentry hfresh hrecords
    rcases hmirrors entry hentry with ⟨persisted, hfound, hsame, hfiles⟩
    rw [hrecords] at hfiles
    rw [Scene.decision_of_entry htrust hforce hentry, hrecords,
      Scene.decision_reopened htrust hforce hstore hload hfound, hsame, hfiles]
    unfold CacheEntry.decision
    rw [hfresh]
    exact ⟨rfl, rfl⟩
  case tracked =>
    intro entry files hentry hfresh hrecords
    rcases hmirrors entry hentry with ⟨persisted, hfound, hsame, hfiles⟩
    rw [hrecords] at hfiles
    rw [Scene.decision_of_entry htrust hforce hentry, hrecords,
      Scene.decision_reopened htrust hforce hstore hload hfound, hsame]
    unfold CacheEntry.decision
    rw [hfresh]
    exact ⟨persisted, hfound, hfiles, rfl, rfl⟩

/-- The two lookups agree exactly if a fresh entry is tracked and both lists of its files
come to the same check. -/
theorem Restarted.same_iff {setup : CacheSetup sigma alpha} {store : Store sigma alpha}
    {now : UInt64} {key : CacheKey} {options : CallOptions} {scene : Scene sigma alpha}
    (h : Restarted setup store now key options scene) :
    scene.reopened.decision setup now key options = scene.decision setup now key options <->
      forall entry, scene.cache.entries.find? key.text = some entry ->
        entry.isFreshAt now = true ->
        exists files persisted, scene.cache.records.find? key.text = some files ∧
          store.found key.text scene.disk = .ok (some persisted) ∧
          (FileRecords.checkList (Disk.files scene.disk) files).isOk =
            (FileRecords.checkList (Disk.files scene.disk) persisted.tracked).isOk := by
  constructor
  · intro hsame entry hentry hfresh
    cases hrecords : scene.cache.records.find? key.text with
    | none =>
        rcases h.untracked entry hentry hfresh hrecords with ⟨hmissed, hserved⟩
        rw [hmissed, hserved] at hsame
        cases hsame
    | some files =>
        rcases h.tracked entry files hentry hfresh hrecords with
          ⟨persisted, hfound, _, hold, hnew⟩
        rw [hold, hnew] at hsame
        exact ⟨files, persisted, rfl, hfound, (entry.verdict_inj.mp hsame).symm⟩
  · intro hchecks
    cases hentry : scene.cache.entries.find? key.text with
    | none => exact h.absent hentry
    | some entry =>
        cases hfresh : entry.isFreshAt now with
        | false => exact h.expired entry hentry hfresh
        | true =>
            rcases hchecks entry hentry hfresh with ⟨files, persisted, hrecords, hfound, hcheck⟩
            rcases h.tracked entry files hentry hfresh hrecords with
              ⟨stored, hstored, _, hold, hnew⟩
            rw [hstored] at hfound
            cases hfound
            rw [hold, hnew, hcheck]

/-- After a run in which the calls on the key do not overlap, on a store that works, the
two lookups agree exactly as above.  If moreover all records are genuine and fingerprints
decide, then they agree exactly if the entry is tracked or no longer fresh. -/
theorem restart_faithful {setup : CacheSetup sigma alpha} {moves : Nat -> Move sigma alpha}
    {json : JsonStore alpha} {store : Store sigma alpha} {key : CacheKey} {count : Nat}
    {start scene : Scene sigma alpha} {options : CallOptions} (htrust : setup.trust = false)
    (hforce : options.forceFresh = false) (hstore : setup.store = some store)
    (hcodec : json.codec.Faithful) (hentry : start.cache.entries.find? key.text = none)
    (hrecord : start.cache.records.find? key.text = none)
    (hserial : (opened start).Serial setup moves key.text count)
    (hretains : (opened start).Retains setup moves json store key.text count)
    (hexact : (opened start).Exact setup moves key.text count)
    (hscene : scene = ((opened start).after setup moves count).scene)
    (hsaved : forall caller, caller ∈ ((opened start).after setup moves count).callers ->
      forall persisted, caller.call.Saves persisted -> persisted.key ≠ key.text)
    (hload : Disk.files (store.load key.text scene.disk).2 = Disk.files scene.disk)
    (now : UInt64) :
    Restarted setup store now key options scene ∧
      (scene.reopened.decision setup now key options = scene.decision setup now key options <->
        forall entry, scene.cache.entries.find? key.text = some entry ->
          entry.isFreshAt now = true ->
          exists files persisted, scene.cache.records.find? key.text = some files ∧
            store.found key.text scene.disk = .ok (some persisted) ∧
            (FileRecords.checkList (Disk.files scene.disk) files).isOk =
              (FileRecords.checkList (Disk.files scene.disk) persisted.tracked).isOk) ∧
      forall seen, (opened start).Sincere setup moves store key.text count seen ->
        (forall persisted, store.found key.text scene.disk = .ok (some persisted) ->
          forall file, file ∈ persisted.tracked -> Decides seen file.path) ->
        (scene.reopened.decision setup now key options = scene.decision setup now key options <->
          forall entry, scene.cache.entries.find? key.text = some entry ->
            entry.isFreshAt now = true ->
            (scene.cache.records.find? key.text).isSome = true) := by
  have hmirrored := mirrored_after hstore hentry hcodec hserial hretains hexact (Nat.le_refl count)
  have hmirrors : scene.cache.Mirrors key.text (store.found key.text scene.disk) := by
    rw [hscene]
    rcases hmirrored.memory with ⟨caller, hmem, persisted, hsaves, hkey⟩ | hmirrors
    · exact absurd hkey (hsaved caller hmem persisted hsaves)
    · exact hmirrors
  have hrestarted : Restarted setup store now key options scene :=
    restarted_of_mirrors htrust hforce hstore hload hmirrors
  refine ⟨hrestarted, hrestarted.same_iff, ?_⟩
  intro seen hsincere hdecides
  rw [hrestarted.same_iff]
  constructor
  · intro hchecks entry hfound hfresh
    rcases hchecks entry hfound hfresh with ⟨files, _, hrecords, _⟩
    rw [hrecords]
    rfl
  · intro htracked entry hfound hfresh
    obtain ⟨files, hrecords⟩ := Option.isSome_iff_exists.mp (htracked entry hfound hfresh)
    rcases hrestarted.tracked entry files hfound hfresh hrecords with
      ⟨persisted, hstored, hfollows, _, _⟩
    have hgenuine := genuine_after hstore hentry hrecord hcodec hserial hretains hexact
      hsincere (Nat.le_refl count)
    have hseen : seen (Disk.files scene.disk) := by
      rw [hscene]
      exact hsincere.watched count (Nat.le_refl count)
    subst hscene
    exact ⟨files, persisted, hrecords, hstored,
      isOk_checkList_eq hseen hfollows (hgenuine.records files hrecords)
        (hgenuine.found persisted hstored) (hdecides persisted hstored)⟩

/-!
# A call on a file, and one on a file that is not there
-/

def shelfWith (present : Bool) : TextShelf :=
  let bare := FileSystem.new [] ⟨0, 0⟩
  ⟨if present then bare.put ["a"] (.file ⟨⟨#[65]⟩, ⟨1, 0⟩⟩) else bare, .empty⟩

def shelfScene (present : Bool) : Scene TextShelf String :=
  ⟨.empty, shelfWith present, []⟩

def shelfStore : Store TextShelf String :=
  TextShelf.store ⟨⟨"s"⟩, .string⟩

def shelved : CacheSetup TextShelf String :=
  ⟨false, some shelfStore⟩

def shelfKey : CacheKey :=
  .file ⟨"a"⟩

def unforced : CallOptions :=
  ⟨none, .zero, false⟩

def firstGet : List (Move TextShelf String) :=
  let next := Move.advance 0 0
  [.start shelfKey unforced, next, next, next, next, next, next,
    .deliver 0 0 (.ok ⟨"v", []⟩), next, next, next]

def shelfRun (present : Bool) (moment : Nat) : Crowd TextShelf String :=
  (opened (shelfScene present)).after shelved (script firstGet) moment

def shelfEntry (present : Bool) : PersistedEntry String :=
  ⟨"file:a", ⟨"v", 0, none, 0⟩,
    if present then [.ofBytes ⟨⟨"a"⟩, 1, (⟨1, 0⟩ : Timestamp).millis⟩ ⟨#[65]⟩] else []⟩

def saving? (caller : Caller String) : Option (PersistedEntry String) :=
  match caller.call.phase with
  | .saving _ persisted => some persisted
  | _ => none

theorem shelfRun_saving (present : Bool) : forall moment, moment < 12 ->
    (shelfRun present moment).callers.map saving? =
      if moment = 0 then [] else if moment = 8 then [some (shelfEntry present)] else [none] := by
  cases present <;> decide +kernel

theorem shelfRun_end (present : Bool) :
    (shelfRun present 11).scene.cache.entries.find? shelfKey.text = some ⟨"v", 0, none, 0⟩ ∧
      ((shelfRun present 11).scene.cache.records.find? shelfKey.text).isSome = present := by
  cases present <;> decide +kernel

theorem firstGet_cases {moment : Nat} (h : moment < 11) :
    script firstGet moment = .start shelfKey unforced ∨
      script firstGet moment = .advance 0 0 ∨
      script firstGet moment = .deliver 0 0 (.ok ⟨"v", []⟩) := by
  interval_cases moment <;>
    first | exact Or.inl rfl | exact Or.inr (Or.inl rfl) | exact Or.inr (Or.inr rfl)

theorem shelfRun_saves {present : Bool} {moment : Nat} (h : moment < 12)
    {caller : Caller String} (hmem : caller ∈ (shelfRun present moment).callers)
    {persisted : PersistedEntry String} (hsaves : caller.call.Saves persisted) :
    moment = 8 ∧ persisted = shelfEntry present := by
  have hsaving : saving? caller = some persisted := by
    rcases hsaves with ⟨ticket, hphase⟩
    unfold saving?
    rw [hphase]
  have hlisted : saving? caller ∈ (shelfRun present moment).callers.map saving? :=
    List.mem_map_of_mem hmem
  rw [hsaving, shelfRun_saving present moment h] at hlisted
  split at hlisted
  · cases hlisted
  · split at hlisted
    · rename_i height
      exact ⟨height, Option.some.inj (List.mem_singleton.mp hlisted)⟩
    · exact absurd (List.mem_singleton.mp hlisted) (by simp)

theorem serial_shelf (present : Bool) :
    (opened (shelfScene present)).Serial shelved (script firstGet) shelfKey.text 11 := by
  intro moment hlt
  have hlength : (shelfRun present moment).callers.length ≤ 1 := by
    have hmap := congrArg List.length (shelfRun_saving present moment (by omega))
    rw [List.length_map] at hmap
    rw [hmap]
    split
    · exact Nat.zero_le 1
    · split <;> exact Nat.le_refl 1
  have honly : forall (place : Nat) (caller : Caller String),
      (shelfRun present moment).callers[place]? = some caller -> place = 0 := by
    intro place caller hplace
    have hbound := (List.getElem?_eq_some_iff.mp hplace).choose
    omega
  rcases firstGet_cases hlt with hmove | hmove | hmove
  · rw [hmove]
    exact trivial
  · rw [hmove]
    intro caller _ _ place other hplace _ _
    exact honly place other hplace
  · rw [hmove]
    intro caller _ _ place other hplace _ _
    exact honly place other hplace

theorem retains_shelf (present : Bool) :
    (opened (shelfScene present)).Retains shelved (script firstGet) ⟨⟨"s"⟩, .string⟩ shelfStore
      shelfKey.text 11 := by
  apply (TextShelf.lawful_store _).retains rfl
  intro moment disk hlt hmove
  rcases firstGet_cases hlt with hother | hother | hother <;>
  · rw [hother] at hmove
    cases hmove

theorem exact_shelf (present : Bool) :
    (opened (shelfScene present)).Exact shelved (script firstGet) shelfKey.text 11 := by
  rintro moment persisted hlt ⟨index, now, caller, _, hcaller, hsaves⟩ _
  have hmem := List.mem_of_getElem? hcaller
  rw [(shelfRun_saves (Nat.lt_succ_of_lt hlt) hmem hsaves).right]
  intro file hfile
  cases present with
  | false => cases hfile
  | true =>
      rw [List.mem_singleton.mp hfile]
      decide +kernel

theorem shelfRun_files (present : Bool) {moment : Nat} (h : moment ≤ 11) :
    (shelfRun present moment).scene.disk.files = (shelfWith present).files := by
  induction moment with
  | zero => rfl
  | succ moment ih =>
      rw [← ih (Nat.le_of_succ_le h)]
      refine play_view TextShelf.files rfl ?_ ?_ ?_ _ ?_
      · intro key shelf
        rfl
      · intro persisted shelf
        rfl
      · intro key shelf
        rfl
      · intro disk hdisk
        rcases firstGet_cases h with hmove | hmove | hmove <;>
        · rw [hmove] at hdisk
          cases hdisk

theorem sincere_shelf (present : Bool) :
    (opened (shelfScene present)).Sincere shelved (script firstGet) shelfStore shelfKey.text 11
      (fun fs => fs = (shelfWith present).files) where
  watched := fun moment hle => shelfRun_files present hle
  calm := by
    intro moment index caller hlt _ _ _ _
    exact (shelfRun_files present hlt).trans (shelfRun_files present (Nat.le_of_lt hlt)).symm
  reported := by
    intro moment index now computed hlt hmove
    rcases firstGet_cases hlt with hother | hother | hother <;> rw [hother] at hmove
    · cases hmove
    · cases hmove
    · cases hmove
      intro file hfile
      cases hfile
  first := by
    intro persisted hfound
    cases hfound

theorem restart_faithful_captured :
    (shelfRun true 11).scene.reopened.decision shelved 0 shelfKey unforced =
      (shelfRun true 11).scene.decision shelved 0 shelfKey unforced := by
  have hends := shelfRun_end true
  refine ((restart_faithful rfl rfl rfl Codec.faithful_string rfl rfl (serial_shelf true)
    (retains_shelf true) (exact_shelf true) rfl ?_ rfl 0).right.right _ (sincere_shelf true)
    ?_).mpr ?_
  · intro caller hmem persisted hsaves
    exact absurd (shelfRun_saves (Nat.lt_succ_self 11) hmem hsaves).left (by decide)
  · intro persisted _ file _ fs other current recorded hfs hother _ _ _
    rw [hfs, hother]
  · intro entry _ _
    exact hends.right

/-- An entry whose own file was missing is served after a restart only. -/
theorem restart_unfaithful :
    (opened (shelfScene false)).Serial shelved (script firstGet) shelfKey.text 11 ∧
      (opened (shelfScene false)).Retains shelved (script firstGet) ⟨⟨"s"⟩, .string⟩ shelfStore
        shelfKey.text 11 ∧
      (opened (shelfScene false)).Exact shelved (script firstGet) shelfKey.text 11 ∧
      (opened (shelfScene false)).Sincere shelved (script firstGet) shelfStore shelfKey.text 11
        (fun fs => fs = (shelfWith false).files) ∧
      (shelfRun false 11).scene.decision shelved 0 shelfKey unforced =
        .missed none (some 0) ∧
      (shelfRun false 11).scene.reopened.decision shelved 0 shelfKey unforced =
        .done (.ok "v") := by
  have hends := shelfRun_end false
  have hmirrored := mirrored_after rfl rfl Codec.faithful_string (serial_shelf false)
    (retains_shelf false) (exact_shelf false) (Nat.le_refl 11)
  have hmirrors : (shelfRun false 11).scene.cache.Mirrors shelfKey.text
      (shelfStore.found shelfKey.text (shelfRun false 11).scene.disk) := by
    rcases hmirrored.memory with ⟨caller, hmem, persisted, hsaves, _⟩ | hmirrors
    · exact absurd (shelfRun_saves (Nat.lt_succ_self 11) hmem hsaves).left (by decide)
    · exact hmirrors
  have hrestarted : Restarted shelved shelfStore 0 shelfKey unforced (shelfRun false 11).scene :=
    restarted_of_mirrors rfl rfl rfl rfl hmirrors
  have hrecords : (shelfRun false 11).scene.cache.records.find? shelfKey.text = none := by
    cases hrecords : (shelfRun false 11).scene.cache.records.find? shelfKey.text with
    | none => rfl
    | some files =>
        rw [hrecords] at hends
        cases hends.right
  refine ⟨serial_shelf false, retains_shelf false, exact_shelf false, sincere_shelf false, ?_⟩
  exact hrestarted.untracked ⟨"v", 0, none, 0⟩ hends.left rfl hrecords

end Crowd
end LessonPress

import LessonPress.Cache.Run
import LessonPress.Proofs.Cache.Tasks

/-!
# Stamps of replaced entries

## What a call knows of the stamps in memory and in the store

A computed value is stamped with the time, or with the successor of the stamp in memory if
the time is not past it.  The store is not asked then.  So an entry gets past the one in
the store only if memory has an entry that is as new, or if the lookup of the call has
found nothing in the store.
-/

namespace LessonPress

namespace CacheEntry

def lastStamp : UInt64 :=
  UInt64.ofNat (UInt64.size - 1)

theorem lt_nextCreated_iff (stamp now : UInt64) (previous : Option UInt64) :
    stamp < nextCreated now previous <->
      previous ≠ some lastStamp ∧
        (stamp < now ∨ exists held, previous = some held ∧ stamp ≤ held) := by
  cases previous with
  | none => simp [nextCreated]
  | some held =>
      simp only [nextCreated, ne_eq, Option.some.injEq, exists_eq_left']
      have hlast : lastStamp.toNat = 2 ^ 64 - 1 := rfl
      have hone : (1 : UInt64).toNat = 1 := rfl
      have hnow := now.toNat_lt
      have hheld := held.toNat_lt
      rw [← UInt64.toNat_inj, hlast]
      split <;> rename_i hle <;>
      · simp only [UInt64.lt_iff_toNat_lt, UInt64.le_iff_toNat_le, UInt64.toNat_add, hone] at *
        omega

end CacheEntry

section Entries

variable {sigma alpha : Type}

def loadedEntry (loaded : Except Error (Option (PersistedEntry alpha))) :
    Option (CacheEntry alpha) :=
  match loaded with
  | .ok (some persisted) => some persisted.entry
  | _ => none

def CacheSetup.stored (setup : CacheSetup sigma alpha) (key : String) (disk : sigma) :
    Option (CacheEntry alpha) :=
  match setup.store with
  | none => none
  | some store => loadedEntry (store.found key disk)

theorem Call.loadedEntry_loaded (setup : CacheSetup sigma alpha) (call : Call alpha)
    (disk : sigma) : loadedEntry (call.loaded setup disk) = setup.stored call.keyText disk := by
  unfold loaded CacheSetup.stored
  cases setup.store <;> rfl

def KeepsStamp (entry before : Option (CacheEntry alpha)) : Prop :=
  forall new, entry = some new -> exists old, before = some old ∧ old.created = new.created

theorem keepsStamp_refl (entry : Option (CacheEntry alpha)) : KeepsStamp entry entry :=
  fun new hnew => ⟨new, hnew, rfl⟩

theorem KeepsStamp.trans {entry middle before : Option (CacheEntry alpha)}
    (h : KeepsStamp entry middle) (hmiddle : KeepsStamp middle before) :
    KeepsStamp entry before := by
  intro new hnew
  rcases h new hnew with ⟨old, hold, hstamp⟩
  rcases hmiddle old hold with ⟨older, holder, hsame⟩
  exact ⟨older, holder, hsame.trans hstamp⟩

theorem KeepsStamp.eq_none {entry : Option (CacheEntry alpha)} (h : KeepsStamp entry none) :
    entry = none := by
  cases entry with
  | none => rfl
  | some new =>
      rcases h new rfl with ⟨old, hold, _⟩
      cases hold

end Entries

def Phase.isUnsaved {alpha : Type} : Phase alpha -> Bool
  | .restoring _ => true
  | .scanning _ _ _ _ => true
  | .hashing _ _ _ _ _ => true
  | .missed _ _ => true
  | .capturing _ => true
  | .reading _ _ => true
  | .computing _ _ => true
  | .saving _ _ => true
  | _ => false

theorem Phase.isUnsaved_iff {alpha : Type} (phase : Phase alpha) :
    phase.isUnsaved = true <-> 5 ≤ phase.rank ∧ phase.rank ≤ 11 := by
  cases phase <;> simp [isUnsaved, rank]

namespace Call

variable {sigma alpha : Type} {call next : Call alpha} {key : String}
  {held stored : Option (CacheEntry alpha)}

/-- What a call on the key may rely on, for the entry that memory holds and the one that
the store gives.  A call without an entry in memory has loaded the stored one or knows that
there is none, unless it was told not to look; and what it saves is past the stored one. -/
def Aware (call : Call alpha) (key : String) (held stored : Option (CacheEntry alpha)) : Prop :=
  call.keyText = key ->
    match call.phase with
    | .restoring loaded => held = none -> KeepsStamp stored (loadedEntry loaded)
    | .saving _ persisted =>
        (exists entry, held = some entry ∧ persisted.entry.created ≤ entry.created) ∧
          forall old, stored = some old -> old.created < persisted.entry.created
    | phase => phase.isUnsaved = true -> call.options.forceFresh = false -> held = none ->
        stored = none

theorem aware_of_ne (h : call.keyText ≠ key) : call.Aware key held stored :=
  fun hkey => absurd hkey h

theorem aware_of_not_unsaved (h : call.phase.isUnsaved = false) : call.Aware key held stored := by
  intro _
  split <;> rename_i hphase
  · rw [hphase] at h
    cases h
  · rw [hphase] at h
    cases h
  · intro hunsaved
    rw [h] at hunsaved
    cases hunsaved

theorem aware_of_held (hheld : held ≠ none) (hsaving : forall persisted, ¬ call.Saves persisted) :
    call.Aware key held stored := by
  intro _
  split
  · exact fun hnone => absurd hnone hheld
  · rename_i ticket persisted hphase
    exact absurd ⟨ticket, hphase⟩ (hsaving persisted)
  · exact fun _ _ hnone => absurd hnone hheld

theorem Aware.frame (h : call.Aware key held stored) {found : Option (CacheEntry alpha)}
    (hfound : KeepsStamp found stored) : call.Aware key held found := by
  intro hkey
  have hcall := h hkey
  split <;> rename_i hphase <;> simp only [hphase] at hcall
  · exact fun hnone => hfound.trans (hcall hnone)
  · refine ⟨hcall.left, ?_⟩
    intro new hnew
    rcases hfound new hnew with ⟨old, hold, hstamp⟩
    rw [← hstamp]
    exact hcall.right old hold
  · intro hunsaved hforce hnone
    rw [hcall hunsaved hforce hnone] at hfound
    exact hfound.eq_none

theorem Aware.held_of_saves (h : call.Aware key held stored) (hkey : call.keyText = key)
    {persisted : PersistedEntry alpha} (hsaves : call.Saves persisted) : held ≠ none := by
  rcases hsaves with ⟨ticket, hphase⟩
  have hcall := h hkey
  simp only [hphase] at hcall
  rcases hcall.left with ⟨entry, hentry, _⟩
  rw [hentry]
  exact Option.some_ne_none entry

/-!
# Steps of a call
-/

section Lookup

variable {setup : CacheSetup sigma alpha} {now : UInt64} {scene : Scene sigma alpha}

theorem openCall_aware
    (hsaving : forall persisted, ¬ (call.openCall setup now scene).1.Saves persisted) :
    (call.openCall setup now scene).1.Aware call.keyText
      ((call.openCall setup now scene).2.cache.entries.find? call.keyText) stored := by
  by_cases hforce : call.options.forceFresh = true
  · unfold openCall
    rw [if_pos hforce]
    intro _ _ hunforced
    change call.options.forceFresh = false at hunforced
    rw [hforce] at hunforced
    cases hunforced
  · unfold openCall at hsaving ⊢
    rw [if_neg hforce] at hsaving ⊢
    split at hsaving <;> rename_i hentry
    · refine aware_of_held ?_ hsaving
      rw [judge_cache, hentry]
      exact Option.some_ne_none _
    · exact aware_of_not_unsaved rfl

theorem restore_aware {loaded : Except Error (Option (PersistedEntry alpha))}
    (h : scene.cache.entries.find? call.keyText = none -> KeepsStamp stored (loadedEntry loaded))
    (hsaving : forall persisted, ¬ (call.restore setup now scene loaded).1.Saves persisted) :
    (call.restore setup now scene loaded).1.Aware call.keyText
      ((call.restore setup now scene loaded).2.cache.entries.find? call.keyText) stored := by
  have hnothing : forall (next : Scene sigma alpha), next.cache = scene.cache ->
      loadedEntry loaded = none ->
      (call.miss next .notCached none none).1.Aware call.keyText
        ((call.miss next .notCached none none).2.cache.entries.find? call.keyText) stored := by
    intro next hcache hloaded _ _ _ hnone
    change next.cache.entries.find? call.keyText = none at hnone
    rw [hcache] at hnone
    have hkept := h hnone
    rw [hloaded] at hkept
    exact hkept.eq_none
  cases loaded with
  | error cause => exact hnothing _ rfl rfl
  | ok given =>
      cases given with
      | none => exact hnothing _ rfl rfl
      | some persisted =>
          refine aware_of_held ?_ hsaving
          dsimp only [restore]
          split
          · rename_i entry hentry
            rw [judge_cache, hentry]
            exact Option.some_ne_none entry
          · rw [judge_cache]
            change (scene.cache.entries.insert call.keyText persisted.entry).find? _ ≠ none
            rw [Table.find?_insert_self]
            exact Option.some_ne_none _

theorem load_phase (setup : CacheSetup sigma alpha) (call : Call alpha)
    (scene : Scene sigma alpha) :
    (call.load setup scene).1 = call.goTo (.restoring (call.loaded setup scene.disk)) := by
  unfold load loaded
  cases setup.store <;> rfl

end Lookup

section Step

variable [Disk sigma] {setup : CacheSetup sigma alpha} {now : UInt64} {scene : Scene sigma alpha}

theorem step_not_saves (setup : CacheSetup sigma alpha) (now : UInt64) (call : Call alpha)
    (scene : Scene sigma alpha) (persisted : PersistedEntry alpha) :
    ¬ (call.step setup now scene).1.Saves persisted := by
  rintro ⟨ticket, hphase⟩
  have hreaches := step_reaches setup now call scene
  rw [hphase] at hreaches
  cases hreaches

/-- A call that has gone past its lookup, and still has nothing to save, knows what it has
known before. -/
theorem step_aware_of_past (h : call.Aware key (scene.cache.entries.find? key) stored)
    (hcomputing : 5 < call.phase.rank) (hlooked : call.phase.rank < 11)
    {found : Option (CacheEntry alpha)} (hfound : KeepsStamp found stored) :
    (call.step setup now scene).1.Aware key
      ((call.step setup now scene).2.cache.entries.find? key) found := by
  have hrank : forall phase, call.phase = phase -> 5 < phase.rank ∧ phase.rank < 11 := by
    rintro phase rfl
    exact ⟨hcomputing, hlooked⟩
  have hentries : (call.step setup now scene).2.cache.entries = scene.cache.entries := by
    apply step_entries
    · intro ticket value outcome hphase
      have hbound := (hrank _ hphase).left
      simp [Phase.rank] at hbound
    · rintro ⟨persisted, hphase, _⟩
      have hbound := (hrank _ hphase).right
      simp [Phase.rank] at hbound
  rw [hentries]
  intro hkey
  rw [keyText_step] at hkey
  have hcall := h hkey
  have hreaches := step_reaches setup now call scene
  split at hcall <;> rename_i hphase
  · have hbound := (hrank _ hphase).right
    simp [Phase.rank] at hbound
  · have hbound := (hrank _ hphase).left
    simp [Phase.rank] at hbound
  · split
    · rename_i hnext
      rw [hnext] at hreaches
      cases hreaches with
      | restoring hloading =>
          have hbound := (hrank _ hloading).right
          simp [Phase.rank] at hbound
    · rename_i ticket persisted hnext
      exact absurd ⟨ticket, hnext⟩ (step_not_saves setup now call scene persisted)
    · intro _ hforce hnone
      rw [(sameCall_step setup now call scene).right] at hforce
      have hpast := call.phase.isUnsaved_iff.mpr ⟨by omega, by omega⟩
      rw [hcall hpast hforce hnone] at hfound
      exact hfound.eq_none

theorem step_not_unsaved (h : call.phase.rank < 6) :
    (call.step setup now scene).1.phase.isUnsaved = false := by
  unfold step
  cases hphase : call.phase with
  | saving ticket persisted =>
      dsimp only [save]
      split <;> rfl
  | saved ticket value outcome =>
      dsimp only [supersede]
      split
      · rfl
      · split <;> rfl
  | removing ticket value previous => rfl
  | removed ticket value previous outcome => rfl
  | waiting ticket =>
      dsimp only [receive]
      split
      · rw [hphase]
        rfl
      · split <;> rfl
  | done result =>
      dsimp only
      rw [hphase]
      rfl
  | _ =>
      rw [hphase] at h
      simp [Phase.rank] at h

theorem step_entry_cases (setup : CacheSetup sigma alpha) (now : UInt64) (call : Call alpha)
    (scene : Scene sigma alpha) (key : String) :
    (call.step setup now scene).2.cache.entries.find? key = scene.cache.entries.find? key ∨
      (call.step setup now scene).2.cache.entries.find? key = none ∨
      scene.cache.entries.find? key = none ∧ call.keyText = key ∧
        exists persisted, call.phase = .restoring (.ok (some persisted)) ∧
          (call.step setup now scene).2.cache.entries.find? key = some persisted.entry := by
  cases step_turn setup now call scene with
  | same hentries _ =>
      rw [hentries]
      exact Or.inl rfl
  | dropped other _ _ hentries _ =>
      rw [hentries]
      by_cases hother : key = other
      · rw [hother, Table.find?_erase_self]
        exact Or.inr (Or.inl rfl)
      · rw [Table.find?_erase_of_ne _ hother]
        exact Or.inl rfl
  | restored persisted hphase hentries _ =>
      by_cases hkey : key = call.keyText
      · subst hkey
        cases hentry : scene.cache.entries.find? call.keyText with
        | some entry =>
            rw [step_restoring_some setup now hphase hentry, hentry]
            exact Or.inl rfl
        | none =>
            refine Or.inr (Or.inr ⟨rfl, rfl, persisted, hphase, ?_⟩)
            rw [hentries]
            exact Table.find?_insert_self ..
      · rw [hentries, Table.find?_insert_of_ne _ _ hkey]
        exact Or.inl rfl
  | refreshed entry checked _ hentries _ =>
      rw [hentries]
      exact Or.inl rfl

theorem step_aware
    (h : call.Aware key (scene.cache.entries.find? key) (setup.stored key scene.disk))
    (hstored : (forall persisted, ¬ call.Saves persisted) ->
      KeepsStamp (setup.stored key (call.step setup now scene).2.disk)
        (setup.stored key scene.disk)) :
    (call.step setup now scene).1.Aware key
      ((call.step setup now scene).2.cache.entries.find? key)
      (setup.stored key (call.step setup now scene).2.disk) := by
  by_cases hkey : call.keyText = key
  case neg =>
    apply aware_of_ne
    rw [keyText_step]
    exact hkey
  subst hkey
  by_cases hsaved : call.phase.rank < 6
  · exact aware_of_not_unsaved (step_not_unsaved hsaved)
  have hkept := hstored (by
    rintro persisted ⟨ticket, hphase⟩
    rw [hphase] at hsaved
    exact hsaved (by simp [Phase.rank]))
  by_cases hpast : call.phase.rank < 11
  · exact step_aware_of_past h (by omega) hpast hkept
  have hsaving := step_not_saves setup now call scene
  unfold step at hsaving hkept ⊢
  cases hphase : call.phase with
  | opening =>
      rw [hphase] at hsaving
      exact openCall_aware hsaving
  | loading =>
      intro _
      rw [load_phase]
      intro _
      rw [loadedEntry_loaded]
      rw [hphase] at hkept
      exact hkept
  | restoring loaded =>
      rw [hphase] at hsaving hkept
      refine restore_aware ?_ hsaving
      intro hnone
      have hcall := h rfl
      rw [hphase] at hcall
      exact hkept.trans (hcall hnone)
  | _ =>
      rw [hphase] at hpast
      simp [Phase.rank] at hpast

end Step

/-!
# Computations
-/

/-- What a call keeps is past the entry in the store: it takes the successor of a stamp that
is not older, or nothing is stored, or the time is past. -/
theorem keep_past {ticket : Ticket alpha} {primary : Option TrackedFile} {cache : Cache alpha}
    (hphase : call.phase = .computing ticket primary)
    (hcall : call.Aware call.keyText (cache.entries.find? call.keyText) stored)
    (hmemory : forall entry old, cache.entries.find? call.keyText = some entry ->
      stored = some old -> old.created ≤ entry.created)
    (hlast : (cache.entries.find? call.keyText).map CacheEntry.created ≠ some CacheEntry.lastStamp)
    (now : UInt64)
    (hforced : call.options.forceFresh = true -> cache.entries.find? call.keyText = none ->
      forall old, stored = some old -> old.created < now)
    (computed : Computed alpha) {old : CacheEntry alpha} (hold : stored = some old) :
    old.created < (call.keep now cache primary computed).1.entry.created := by
  apply (CacheEntry.lt_nextCreated_iff old.created now _).mpr
  refine ⟨hlast, ?_⟩
  cases hheld : cache.entries.find? call.keyText with
  | some entry => exact Or.inr ⟨entry.created, rfl, hmemory entry old hheld hold⟩
  | none =>
      cases hforce : call.options.forceFresh with
      | true => exact Or.inl (hforced hforce hheld old hold)
      | false =>
          have hnothing := hcall rfl
          rw [hphase] at hnothing
          rw [hnothing rfl hforce hheld] at hold
          cases hold

theorem complete_aware {ticket : Ticket alpha} {primary : Option TrackedFile}
    {scene : Scene sigma alpha} (hphase : call.phase = .computing ticket primary) (now : UInt64)
    (computed : Computed alpha)
    (hpast : forall old, stored = some old ->
      old.created < (call.keep now scene.cache primary computed).1.entry.created) :
    (call.complete now scene (.ok computed)).1.Aware call.keyText
      ((call.complete now scene (.ok computed)).2.cache.entries.find? call.keyText) stored := by
  intro _
  rw [complete_ok now scene hphase]
  unfold complete
  rw [hphase]
  exact ⟨⟨_, Table.find?_insert_self .., UInt64.le_refl _⟩, hpast⟩

theorem saves_of_complete {ticket : Ticket alpha} {primary : Option TrackedFile}
    {now : UInt64} {scene : Scene sigma alpha} {outcome : Except Error (Computed alpha)}
    {persisted : PersistedEntry alpha} (hphase : call.phase = .computing ticket primary)
    (h : (call.complete now scene outcome).1.Saves persisted) :
    exists computed, outcome = .ok computed ∧
      persisted = (call.keep now scene.cache primary computed).1 := by
  rcases h with ⟨other, hsaving⟩
  unfold complete at hsaving
  rw [hphase] at hsaving
  cases outcome with
  | error cause => cases hsaving
  | ok computed =>
      cases hsaving
      exact ⟨computed, rfl, rfl⟩

end Call
end LessonPress

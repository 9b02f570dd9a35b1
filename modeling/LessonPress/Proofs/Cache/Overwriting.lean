import LessonPress.Proofs.Cache.LiveKeys
import LessonPress.Proofs.Cache.Stamps

/-!
# Entries that take the place of others

## When a new entry is newer than the one it replaces

In memory a new entry is newer than the one before it, unless that has the last stamp.  What
it overwrites in the store was stored by the cache itself, or was there before; the stamp
does not depend on it.  In a regular run it is past that stamp as well.
-/

namespace LessonPress

namespace Caller

variable {alpha : Type} {caller : Caller alpha}

theorem works_of_saves {persisted : PersistedEntry alpha} (h : caller.call.Saves persisted) :
    caller.Works := by
  rcases h with ⟨ticket, hphase⟩
  refine ⟨ticket.flight, ?_⟩
  unfold stage
  rw [hphase]
  rfl

theorem works_of_computes (h : caller.call.Computes) : caller.Works := by
  rcases h with ⟨ticket, primary, hphase⟩
  refine ⟨ticket.flight, ?_⟩
  unfold stage
  rw [hphase]
  rfl

end Caller

namespace Crowd

variable {sigma alpha : Type}

def Replaces (crowd : Crowd sigma alpha) (move : Move sigma alpha) (call : Call alpha)
    (now : UInt64) (previous : Option (CacheEntry alpha)) (entry : CacheEntry alpha) : Prop :=
  exists index computed recorded, move = .deliver index now (.ok computed) ∧
    crowd.Enters move call entry recorded ∧
    crowd.scene.cache.entries.find? call.keyText = previous

theorem replaces_deliver {crowd : Crowd sigma alpha} {index : Nat} {caller : Caller alpha}
    {ticket : Ticket alpha} {primary : Option TrackedFile} {previous : Option (CacheEntry alpha)}
    (hcaller : crowd.callers[index]? = some caller)
    (hphase : caller.call.phase = .computing ticket primary)
    (hprevious : crowd.scene.cache.entries.find? caller.keyText = previous) (now : UInt64)
    (computed : Computed alpha) :
    crowd.Replaces (.deliver index now (.ok computed)) caller.call now previous
      (caller.call.keep now crowd.scene.cache primary computed).1.entry :=
  ⟨index, computed, _, rfl, .stored hcaller hphase, hprevious⟩

theorem Replaces.created {crowd : Crowd sigma alpha} {move : Move sigma alpha}
    {call : Call alpha} {now : UInt64} {previous : Option (CacheEntry alpha)}
    {entry : CacheEntry alpha} (h : crowd.Replaces move call now previous entry) :
    entry.created = CacheEntry.nextCreated now (previous.map CacheEntry.created) := by
  rcases h with ⟨index, computed, recorded, rfl, henters, rfl⟩
  cases henters with
  | stored _ _ => rfl

/-- Only what the move itself saves under the key brings a new stamp into the store. -/
def OwnStamp (setup : CacheSetup sigma alpha) (key : String) (crowd next : Crowd sigma alpha)
    (move : Move sigma alpha) : Prop :=
  KeepsStamp (setup.stored key next.scene.disk) (setup.stored key crowd.scene.disk) ∨
    exists persisted, crowd.Saves move persisted ∧ persisted.key = key ∧
      KeepsStamp (setup.stored key next.scene.disk) (some persisted.entry)

def KeepsEntry (key : String) (crowd next : Crowd sigma alpha) : Prop :=
  forall caller, caller ∈ crowd.callers -> caller.keyText = key ->
    caller.call.phase.isUnsaved = true -> crowd.scene.cache.entries.find? key ≠ none ->
    next.scene.cache.entries.find? key ≠ none

/-- Where a call that was told not to look finds memory empty, the time is past the stamp in
the store. -/
def ForcedPast (setup : CacheSetup sigma alpha) (key : String) (crowd : Crowd sigma alpha)
    (move : Move sigma alpha) : Prop :=
  forall call now entry old, crowd.Replaces move call now none entry -> call.keyText = key ->
    call.options.forceFresh = true -> setup.stored key crowd.scene.disk = some old ->
    old.created < now

structure Covered (setup : CacheSetup sigma alpha) (key : String) (crowd : Crowd sigma alpha) :
    Prop where
  memory : forall entry old, crowd.scene.cache.entries.find? key = some entry ->
    setup.stored key crowd.scene.disk = some old -> old.created ≤ entry.created
  calls : forall caller, caller ∈ crowd.callers ->
    caller.call.Aware key (crowd.scene.cache.entries.find? key)
      (setup.stored key crowd.scene.disk)

namespace Covered

variable {setup : CacheSetup sigma alpha} {key : String} {crowd next : Crowd sigma alpha}
  {index : Nat} {caller after : Caller alpha}

theorem memory_of_same (h : crowd.Covered setup key)
    (hentry : next.scene.cache.entries.find? key = crowd.scene.cache.entries.find? key)
    (hstored : KeepsStamp (setup.stored key next.scene.disk)
      (setup.stored key crowd.scene.disk))
    (entry old : CacheEntry alpha) (hheld : next.scene.cache.entries.find? key = some entry)
    (hold : setup.stored key next.scene.disk = some old) : old.created ≤ entry.created := by
  rcases hstored old hold with ⟨before, hbefore, hstamp⟩
  rw [← hstamp]
  exact h.memory entry before (hentry.symm.trans hheld) hbefore

theorem aware_of_dropped (h : crowd.Covered setup key)
    (hentry : next.scene.cache.entries.find? key = crowd.scene.cache.entries.find? key ∨
      next.scene.cache.entries.find? key = none)
    (hstored : KeepsStamp (setup.stored key next.scene.disk)
      (setup.stored key crowd.scene.disk))
    (hkept : KeepsEntry key crowd next) (hmem : caller ∈ crowd.callers) :
    caller.call.Aware key (next.scene.cache.entries.find? key)
      (setup.stored key next.scene.disk) := by
  have hsame : next.scene.cache.entries.find? key = crowd.scene.cache.entries.find? key ->
      caller.call.Aware key (next.scene.cache.entries.find? key)
        (setup.stored key next.scene.disk) := by
    intro hentry
    rw [hentry]
    exact (h.calls caller hmem).frame hstored
  rcases hentry with hentry | hnone
  · exact hsame hentry
  · by_cases hheld : crowd.scene.cache.entries.find? key = none
    · exact hsame (hnone.trans hheld.symm)
    · by_cases hkey : caller.keyText = key
      · apply Call.aware_of_not_unsaved
        apply Bool.eq_false_iff.mpr
        intro hunsaved
        exact hkept caller hmem hkey hunsaved hheld hnone
      · exact Call.aware_of_ne hkey

theorem outside (h : crowd.Covered setup key) (hcallers : next.callers = crowd.callers)
    (hentry : next.scene.cache.entries.find? key = crowd.scene.cache.entries.find? key ∨
      next.scene.cache.entries.find? key = none)
    (hstored : KeepsStamp (setup.stored key next.scene.disk)
      (setup.stored key crowd.scene.disk))
    (hkept : KeepsEntry key crowd next) : next.Covered setup key := by
  constructor
  case memory =>
    intro entry old hheld hold
    rcases hentry with hsame | hnone
    · exact h.memory_of_same hsame hstored entry old hheld hold
    · rw [hnone] at hheld
      cases hheld
  case calls =>
    intro caller hmem
    rw [hcallers] at hmem
    exact h.aware_of_dropped hentry hstored hkept hmem

theorem act (hcallers : next.callers = crowd.callers.set index after)
    (hmemory : forall entry old, next.scene.cache.entries.find? key = some entry ->
      setup.stored key next.scene.disk = some old -> old.created ≤ entry.created)
    (hafter : after.call.Aware key (next.scene.cache.entries.find? key)
      (setup.stored key next.scene.disk))
    (hothers : forall place other, place ≠ index -> crowd.callers[place]? = some other ->
      other.call.Aware key (next.scene.cache.entries.find? key)
        (setup.stored key next.scene.disk)) :
    next.Covered setup key := by
  refine ⟨hmemory, ?_⟩
  intro other hmem
  rw [hcallers] at hmem
  obtain ⟨place, hplace⟩ := List.mem_iff_getElem?.mp hmem
  rcases getElem?_set_cases hplace with ⟨_, hsame⟩ | ⟨hne, hold⟩
  · rw [hsame]
    exact hafter
  · exact hothers place other hne hold

/-- While a call of the key computes or saves, no other call of the key saves. -/
theorem aware_of_works (horderly : crowd.Orderly) (hcaller : crowd.callers[index]? = some caller)
    (hworks : caller.Works) (hkey : caller.keyText = key) {place : Nat} {other : Caller alpha}
    (hne : place ≠ index) (hother : crowd.callers[place]? = some other)
    {held stored : Option (CacheEntry alpha)} (hheld : held ≠ none) :
    other.call.Aware key held stored := by
  by_cases hotherKey : other.keyText = key
  · apply Call.aware_of_held hheld
    intro persisted hsaves
    exact hne (horderly.works_alone place index other caller hother hcaller
      (Caller.works_of_saves hsaves) hworks (hotherKey.trans hkey.symm))
  · exact Call.aware_of_ne hotherKey

section Moves

variable [Disk sigma] {now : UInt64}

theorem advance_quiet (h : crowd.Covered setup key)
    (hcaller : crowd.callers[index]? = some caller)
    (hafter : after.call = (caller.call.step setup now crowd.scene).1)
    (hscene : next.scene = (caller.call.step setup now crowd.scene).2)
    (hcallers : next.callers = crowd.callers.set index after)
    (hstored : KeepsStamp (setup.stored key next.scene.disk)
      (setup.stored key crowd.scene.disk))
    (hkept : KeepsEntry key crowd next) : next.Covered setup key := by
  have hcall := h.calls caller (List.mem_of_getElem? hcaller)
  have hstep : after.call.Aware key (next.scene.cache.entries.find? key)
      (setup.stored key next.scene.disk) := by
    rw [hscene] at hstored ⊢
    rw [hafter]
    exact Call.step_aware hcall fun _ => hstored
  rcases Call.step_entry_cases setup now caller.call crowd.scene key with
    hentry | hnone | ⟨hnone, hkey, persisted, hphase, hentry⟩
  · rw [← hscene] at hentry
    refine act hcallers (h.memory_of_same hentry hstored) hstep ?_
    intro place other _ hother
    exact h.aware_of_dropped (Or.inl hentry) hstored hkept (List.mem_of_getElem? hother)
  · rw [← hscene] at hnone
    refine act hcallers ?_ hstep ?_
    · intro entry old hheld
      rw [hnone] at hheld
      cases hheld
    · intro place other _ hother
      exact h.aware_of_dropped (Or.inr hnone) hstored hkept (List.mem_of_getElem? hother)
  · -- what is restored is what was loaded, and the store has given nothing else since
    rw [← hscene] at hentry
    have hloaded := hcall hkey
    rw [hphase] at hloaded
    have hrestored := hstored.trans (hloaded hnone)
    refine act hcallers ?_ hstep ?_
    · intro entry old hheld hold
      rw [hentry] at hheld
      cases hheld
      rcases hrestored old hold with ⟨given, hgiven, hstamp⟩
      cases hgiven
      rw [hstamp]
      exact UInt64.le_refl _
    · intro place other _ hother
      by_cases hotherKey : other.keyText = key
      · apply Call.aware_of_held
        · rw [hentry]
          exact Option.some_ne_none _
        · intro saved hsaves
          exact (h.calls other (List.mem_of_getElem? hother)).held_of_saves hotherKey hsaves hnone
      · exact Call.aware_of_ne hotherKey

theorem advance_saving (h : crowd.Covered setup key) (horderly : crowd.Orderly)
    (hcaller : crowd.callers[index]? = some caller)
    (hafter : after.call = (caller.call.step setup now crowd.scene).1)
    (hscene : next.scene = (caller.call.step setup now crowd.scene).2)
    (hcallers : next.callers = crowd.callers.set index after) (hkey : caller.keyText = key)
    {persisted : PersistedEntry alpha} (hsaves : caller.call.Saves persisted)
    (hstored : KeepsStamp (setup.stored key next.scene.disk) (some persisted.entry)) :
    next.Covered setup key := by
  have hcall := h.calls caller (List.mem_of_getElem? hcaller)
  have hheld := hcall.held_of_saves hkey hsaves
  have hworks := Caller.works_of_saves hsaves
  rcases hsaves with ⟨ticket, hphase⟩
  have hentry : next.scene.cache.entries.find? key = crowd.scene.cache.entries.find? key := by
    rw [hscene, Call.step_entries]
    · simp [hphase]
    · simp [hphase]
  refine act hcallers ?_ ?_ ?_
  · intro entry old hnew hold
    have hsaving := hcall hkey
    rw [hphase] at hsaving
    rcases hsaving.left with ⟨other, hother, hle⟩
    rw [← hentry, hnew] at hother
    cases hother
    rcases hstored old hold with ⟨saved, hsaved, hstamp⟩
    cases hsaved
    rw [← hstamp]
    exact hle
  · apply Call.aware_of_not_unsaved
    rw [hafter]
    apply Call.step_not_unsaved
    rw [hphase]
    simp [Phase.rank]
  · intro place other hne hother
    rw [hentry]
    exact aware_of_works horderly hcaller hworks hkey hne hother hheld

theorem advance (h : crowd.Covered setup key) (horderly : crowd.Orderly)
    (hkeyed : forall caller persisted, caller ∈ crowd.callers -> caller.call.Saves persisted ->
      persisted.key = caller.keyText)
    (hown : OwnStamp setup key crowd (crowd.play setup (.advance index now)) (.advance index now))
    (hkept : KeepsEntry key crowd (crowd.play setup (.advance index now))) :
    (crowd.play setup (.advance index now)).Covered setup key := by
  rcases play_advance_cases setup crowd index now with
    ⟨_, hscene, hcallers⟩ | ⟨caller, after, hcaller, hafter, hscene, hcallers⟩
  · apply h.outside hcallers
    · rw [hscene]
      exact Or.inl rfl
    · rw [hscene]
      exact keepsStamp_refl _
    · exact hkept
  · rcases hown with hsame | ⟨persisted, hsaves, hkey, hnew⟩
    · exact h.advance_quiet hcaller hafter hscene hcallers hsame hkept
    · rw [saves_advance hcaller] at hsaves
      have hcallKey := (hkeyed caller persisted (List.mem_of_getElem? hcaller) hsaves).symm
      exact h.advance_saving horderly hcaller hafter hscene hcallers (hcallKey.trans hkey) hsaves
        hnew

theorem deliver {outcome : Except Error (Computed alpha)} (h : crowd.Covered setup key)
    (horderly : crowd.Orderly)
    (hlast : (crowd.scene.cache.entries.find? key).map CacheEntry.created ≠
      some CacheEntry.lastStamp)
    (hforced : ForcedPast setup key crowd (.deliver index now outcome)) :
    (crowd.play setup (.deliver index now outcome)).Covered setup key := by
  have hstored : setup.stored key (crowd.play setup (.deliver index now outcome)).scene.disk =
      setup.stored key crowd.scene.disk := by
    rw [disk_deliver]
  rcases play_deliver_cases setup crowd index now outcome with
    ⟨hscene, hcallers⟩ |
      ⟨caller, after, ticket, primary, hcaller, hphase, hafter, hscene, hcallers⟩
  · apply h.outside hcallers
    · rw [hscene]
      exact Or.inl rfl
    · rw [hscene]
      exact keepsStamp_refl _
    · intro caller _ _ _ hheld
      rw [hscene]
      exact hheld
  have hmem := List.mem_of_getElem? hcaller
  by_cases hkeeps : caller.keyText = key ∧ exists computed, outcome = .ok computed
  · rcases hkeeps with ⟨rfl, computed, rfl⟩
    have hpast : forall old, setup.stored caller.keyText crowd.scene.disk = some old ->
        old.created <
          (caller.call.keep now crowd.scene.cache primary computed).1.entry.created := by
      intro old hold
      refine Call.keep_past hphase (h.calls caller hmem) h.memory hlast now ?_ computed hold
      intro hforce hnone old hold
      exact hforced caller.call now _ old (replaces_deliver hcaller hphase hnone now computed) rfl
        hforce hold
    have hentry : (crowd.play setup (.deliver index now
        (.ok computed))).scene.cache.entries.find? caller.keyText =
          some (caller.call.keep now crowd.scene.cache primary computed).1.entry := by
      rw [hscene, Call.complete_ok now crowd.scene hphase]
      exact Table.find?_insert_self ..
    refine act hcallers ?_ ?_ ?_
    · intro entry old hheld hold
      rw [hentry] at hheld
      cases hheld
      rw [hstored] at hold
      exact UInt64.le_of_lt (hpast old hold)
    · rw [hstored, hafter, hscene]
      exact Call.complete_aware hphase now computed hpast
    · intro place other hne hother
      refine aware_of_works horderly hcaller ?_ rfl hne hother ?_
      · exact Caller.works_of_computes ⟨ticket, primary, hphase⟩
      · rw [hentry]
        exact Option.some_ne_none _
  · -- the computation has failed, or it was one for another key
    have hentry : (crowd.play setup (.deliver index now outcome)).scene.cache.entries.find? key =
        crowd.scene.cache.entries.find? key := by
      rw [hscene]
      by_cases hkey : caller.keyText = key
      · cases outcome with
        | ok computed => exact absurd ⟨hkey, computed, rfl⟩ hkeeps
        | error cause =>
            unfold Call.complete
            rw [hphase]
            rfl
      · exact (Call.complete_keeps now crowd.scene outcome (Ne.symm hkey)).left
    have hsame : KeepsStamp
        (setup.stored key (crowd.play setup (.deliver index now outcome)).scene.disk)
        (setup.stored key crowd.scene.disk) := by
      rw [hstored]
      exact keepsStamp_refl _
    refine act hcallers (h.memory_of_same hentry hsame) ?_ ?_
    · rw [hafter]
      by_cases hkey : caller.keyText = key
      · apply Call.aware_of_not_unsaved
        cases outcome with
        | ok computed => exact absurd ⟨hkey, computed, rfl⟩ hkeeps
        | error cause =>
            unfold Call.complete
            rw [hphase]
            rfl
      · apply Call.aware_of_ne
        rw [Call.keyText_complete]
        exact hkey
    · intro place other _ hother
      rw [hentry]
      exact (h.calls other (List.mem_of_getElem? hother)).frame hsame

theorem play {move : Move sigma alpha} (h : crowd.Covered setup key) (horderly : crowd.Orderly)
    (hkeyed : forall caller persisted, caller ∈ crowd.callers -> caller.call.Saves persisted ->
      persisted.key = caller.keyText)
    (hown : OwnStamp setup key crowd (crowd.play setup move) move)
    (hkept : KeepsEntry key crowd (crowd.play setup move))
    (hlast : (crowd.scene.cache.entries.find? key).map CacheEntry.created ≠
      some CacheEntry.lastStamp)
    (hforced : ForcedPast setup key crowd move) : (crowd.play setup move).Covered setup key := by
  -- only a step of a call can save
  have hsame : (forall index now, move ≠ .advance index now) ->
      KeepsStamp (setup.stored key (crowd.play setup move).scene.disk)
        (setup.stored key crowd.scene.disk) := by
    intro hmove
    rcases hown with hsame | ⟨persisted, ⟨index, now, caller, hadvance, _⟩, _⟩
    · exact hsame
    · exact absurd hadvance (hmove index now)
  cases move with
  | start other options =>
      refine ⟨h.memory, ?_⟩
      intro caller hmem
      rcases List.mem_append.mp hmem with hold | hnew
      · exact h.calls caller hold
      · rw [List.mem_singleton.mp hnew]
        exact Call.aware_of_not_unsaved rfl
  | advance index now => exact h.advance horderly hkeyed hown hkept
  | deliver index now outcome => exact h.deliver horderly hlast hforced
  | invalidate other =>
      refine h.outside rfl ?_ (hsame (by simp)) hkept
      change (crowd.scene.invalidate setup other).cache.entries.find? key = _ ∨
        (crowd.scene.invalidate setup other).cache.entries.find? key = none
      rw [(Call.invalidate_contents setup crowd.scene other).left]
      by_cases hkey : key = other.text
      · rw [hkey, Table.find?_erase_self]
        exact Or.inr rfl
      · rw [Table.find?_erase_of_ne _ hkey]
        exact Or.inl rfl
  | clear => exact h.outside rfl (Or.inr rfl) (hsame (by simp)) hkept
  | disturb disk => exact h.outside rfl (Or.inl rfl) (hsame (by simp)) hkept

end Moves
end Covered

/-!
# Runs
-/

section Run

variable [Disk sigma] (setup : CacheSetup sigma alpha) (moves : Nat -> Move sigma alpha)
  (crowd : Crowd sigma alpha) (key : String) (count : Nat)

def ReplacesAt (moment : Nat) (call : Call alpha) (now : UInt64)
    (previous : Option (CacheEntry alpha)) (entry : CacheEntry alpha) : Prop :=
  (crowd.after setup moves moment).Replaces (moves moment) call now previous entry

/-- A run in which the store is written for the key by the cache alone, the key does not
leave memory in the middle of a call, no entry has the last stamp, and no call is told not
to look while the clock is behind the store and memory is empty. -/
structure Regular : Prop where
  own : forall moment, moment < count ->
    OwnStamp setup key (crowd.after setup moves moment) (crowd.after setup moves (moment + 1))
      (moves moment)
  kept : forall moment, moment < count ->
    KeepsEntry key (crowd.after setup moves moment) (crowd.after setup moves (moment + 1))
  bounded : forall moment, moment < count ->
    ((crowd.after setup moves moment).scene.cache.entries.find? key).map CacheEntry.created ≠
      some CacheEntry.lastStamp
  forced : forall moment, moment < count ->
    ForcedPast setup key (crowd.after setup moves moment) (moves moment)

/-- When the entries that are stored in a run are newer than those they take the place of.
In memory they are, unless the entry before has the last stamp.  In the store they are
exactly if the time was past the old stamp when the value was stored, or memory held an
entry then that was not older; so they are in a regular run. -/
structure Renews : Prop where
  memory : forall moment call now previous entry, moment < count ->
    crowd.ReplacesAt setup moves moment call now (some previous) entry ->
    (previous.created < entry.created <-> previous.created ≠ CacheEntry.lastStamp)
  saved : forall moment persisted, moment < count ->
    (crowd.after setup moves moment).Saves (moves moment) persisted ->
    exists source call now previous, source < moment ∧ call.keyText = persisted.key ∧
      crowd.ReplacesAt setup moves source call now previous persisted.entry ∧
      forall old,
        setup.stored persisted.key (crowd.after setup moves moment).scene.disk = some old ->
        (old.created < persisted.entry.created <->
          previous.map CacheEntry.created ≠ some CacheEntry.lastStamp ∧
            (old.created < now ∨
              exists held, previous = some held ∧ old.created ≤ held.created))
  regular : forall moment persisted old, moment < count ->
    (crowd.after setup moves moment).Saves (moves moment) persisted ->
    crowd.Regular setup moves persisted.key count ->
    setup.stored persisted.key (crowd.after setup moves moment).scene.disk = some old ->
    old.created < persisted.entry.created

end Run

section Runs

variable [Disk sigma] {setup : CacheSetup sigma alpha} {moves : Nat -> Move sigma alpha}
  {crowd : Crowd sigma alpha} {key : String} {count moment : Nat}

/-- An entry that a call is about to save has come into memory before, under the key of the
call. -/
theorem saving_after (hcrowd : crowd.callers = []) (moment : Nat) {caller : Caller alpha}
    {persisted : PersistedEntry alpha}
    (hmem : caller ∈ (crowd.after setup moves moment).callers)
    (hsaves : caller.call.Saves persisted) :
    persisted.key = caller.keyText ∧ exists source call now previous, source < moment ∧
      call.keyText = persisted.key ∧
      crowd.ReplacesAt setup moves source call now previous persisted.entry := by
  induction moment generalizing caller with
  | zero =>
      change caller ∈ crowd.callers at hmem
      rw [hcrowd] at hmem
      cases hmem
  | succ moment ih =>
      change caller ∈ ((crowd.after setup moves moment).play setup (moves moment)).callers at hmem
      cases came_play hmem with
      | stood hold =>
          rcases ih hold hsaves with ⟨hkey, source, call, now, previous, hlt, hreplaces⟩
          exact ⟨hkey, source, call, now, previous, Nat.lt_succ_of_lt hlt, hreplaces⟩
      | begun key options hnew =>
          rw [hnew] at hsaves
          rcases hsaves with ⟨ticket, hphase⟩
          cases hphase
      | stepped index now before _ _ hstep =>
          rw [hstep] at hsaves
          exact absurd hsaves (Call.step_not_saves setup now _ _ persisted)
      | completed index now outcome before ticket primary hmove hbefore hphase hcomplete =>
          have hkey : caller.keyText = before.call.keyText := by
            unfold Caller.keyText
            rw [hcomplete, Call.keyText_complete]
          rw [hcomplete] at hsaves
          rcases Call.saves_of_complete hphase hsaves with ⟨computed, rfl, rfl⟩
          have hreplaces := replaces_deliver hbefore hphase rfl now computed
          rw [← hmove] at hreplaces
          exact ⟨hkey.symm, moment, before.call, now, _, Nat.lt_succ_self moment, rfl, hreplaces⟩

variable {scene : Scene sigma alpha}

theorem covered_after (hcache : scene.cache = .empty)
    (hregular : (opened scene).Regular setup moves key count) (hle : moment ≤ count) :
    ((opened scene).after setup moves moment).Covered setup key := by
  have hidle : scene.cache.Idle := by
    rw [hcache]
    exact Cache.idle_empty
  induction moment with
  | zero =>
      constructor
      · intro entry old hheld
        change scene.cache.entries.find? key = some entry at hheld
        rw [hcache] at hheld
        cases hheld
      · intro caller hmem
        cases hmem
  | succ moment ih =>
      apply (ih (Nat.le_of_succ_le hle)).play
      · exact (orderly_opened hidle).after setup moves moment
      · intro caller persisted hmem hsaves
        exact (saving_after rfl moment hmem hsaves).left
      · exact hregular.own moment hle
      · exact hregular.kept moment hle
      · exact hregular.bounded moment hle
      · exact hregular.forced moment hle

/-- Whatever the calls on a new cache, the times they read and the entries that the store
gives: a stored entry is newer than the one in memory unless that has the last stamp, and
newer than the one in the store exactly if the time was past it, or memory held an entry
that was not older.  In a regular run it is always newer. -/
theorem renews_after (hcache : scene.cache = .empty) (moves : Nat -> Move sigma alpha)
    (count : Nat) : (opened scene).Renews setup moves count := by
  constructor
  case memory =>
    intro moment call now previous entry _ hreplaces
    rw [hreplaces.created]
    refine (CacheEntry.lt_nextCreated_iff ..).trans ?_
    constructor
    · rintro ⟨hlast, _⟩ heq
      exact hlast (congrArg some heq)
    · intro hlast
      refine ⟨?_, Or.inr ⟨previous.created, rfl, UInt64.le_refl _⟩⟩
      intro heq
      exact hlast (Option.some.inj heq)
  case saved =>
    rintro moment persisted _ ⟨index, now, caller, _, hcaller, hsaves⟩
    rcases saving_after rfl moment (List.mem_of_getElem? hcaller) hsaves with
      ⟨_, source, call, time, previous, hlt, hkey, hreplaces⟩
    refine ⟨source, call, time, previous, hlt, hkey, hreplaces, ?_⟩
    intro old _
    rw [hreplaces.created]
    refine (CacheEntry.lt_nextCreated_iff ..).trans (and_congr_right fun _ => or_congr_right ?_)
    cases previous with
    | none => simp
    | some held => simp
  case regular =>
    rintro moment persisted old hlt ⟨index, now, caller, _, hcaller, hsaves⟩ hregular hold
    have hmem := List.mem_of_getElem? hcaller
    have hcovered := covered_after hcache hregular (Nat.le_of_lt hlt)
    have hkey := (saving_after rfl moment hmem hsaves).left
    have hcall := hcovered.calls caller hmem hkey.symm
    rcases hsaves with ⟨ticket, hphase⟩
    rw [hphase] at hcall
    exact hcall.right old hold

end Runs

/-!
# Regular runs
-/

section Regular

variable {setup : CacheSetup sigma alpha} {key : String} {crowd : Crowd sigma alpha}
  {move : Move sigma alpha}

theorem ownStamp_of_steady [Disk sigma] {store : Store sigma alpha} (hsteady : store.Steady)
    (hstore : setup.store = some store)
    (hsave : forall persisted disk, KeepsStamp
      (loadedEntry (store.found persisted.key (store.save persisted disk).2))
      (some persisted.entry))
    (hdisturb : forall disk, move = .disturb disk ->
      store.found key disk = store.found key crowd.scene.disk) :
    OwnStamp setup key crowd (crowd.play setup move) move := by
  have hheeds := hsteady.heeds hstore hdisturb
  have hstored : forall disk, setup.stored key disk = loadedEntry (store.found key disk) := by
    intro disk
    unfold CacheSetup.stored
    rw [hstore]
  unfold OwnStamp
  rw [hstored, hstored]
  by_cases hsaves : exists persisted, crowd.Saves move persisted ∧ persisted.key = key
  · rcases hsaves with ⟨persisted, hsaves, rfl⟩
    refine Or.inr ⟨persisted, hsaves, rfl, ?_⟩
    rcases hsaves with ⟨index, now, caller, rfl, hcaller, ticket, hphase⟩
    rw [disk_advance crowd now hcaller, Call.step_disk_eq, hstore, hphase]
    exact hsave persisted crowd.scene.disk
  · left
    by_cases hremoves : crowd.Removes move key
    · rw [hheeds.removed hremoves]
      intro new hnew
      cases hnew
    · rw [hheeds.kept (fun persisted hsave hkey => hsaves ⟨persisted, hsave, hkey⟩) hremoves]
      exact keepsStamp_refl _

theorem forcedPast_of_unforced
    (h : forall caller, caller ∈ crowd.callers -> caller.call.options.forceFresh = false) :
    ForcedPast setup key crowd move := by
  rintro call now entry old ⟨index, computed, recorded, rfl, henters, _⟩ _ hforce
  cases henters with
  | stored hcaller _ =>
      rw [h _ (List.mem_of_getElem? hcaller)] at hforce
      cases hforce

end Regular

/-!
# An expired entry, looked up and passed over
-/

def datedEntry : PersistedEntry String :=
  ⟨"file:a", ⟨"v", 10, some 5, 0⟩, []⟩

def datedScene : Scene EntryShelf String :=
  ⟨.empty, ⟨pageOf 65 1, Table.empty.insert datedEntry.key datedEntry⟩, []⟩

/-- A call finds the entry expired, computes, and the clock goes back. -/
def expiredRun : List (Move EntryShelf String) :=
  let next := Move.advance 0 20
  [.start (.file ⟨"a"⟩) ⟨none, .zero, false⟩, next, next, next, next, next, next,
    .deliver 0 5 (.ok ⟨"w", []⟩), next, next, next]

def expiredCrowd (moment : Nat) : Crowd EntryShelf String :=
  (opened datedScene).after entryStored (script expiredRun) moment

def stampsOf (crowd : Crowd EntryShelf String) : Option UInt64 × Option UInt64 :=
  ((crowd.scene.cache.entries.find? datedEntry.key).map CacheEntry.created,
    (entryStored.stored datedEntry.key crowd.scene.disk).map CacheEntry.created)

theorem ownStamp_shelf {crowd : Crowd EntryShelf String} {move : Move EntryShelf String}
    (hmove : forall disk, move ≠ .disturb disk) (key : String) :
    OwnStamp entryStored key crowd (crowd.play entryStored move) move := by
  apply ownStamp_of_steady EntryShelf.steady_store rfl
  · intro persisted disk
    change KeepsStamp (loadedEntry
      (.ok ((disk.held.insert persisted.key persisted).find? persisted.key))) _
    rw [Table.find?_insert_self]
    exact keepsStamp_refl _
  · intro disk hdisturb
    exact absurd hdisturb (hmove disk)

theorem renews_after_expired :
    datedScene.cache = .empty ∧
      (opened datedScene).Renews entryStored (script expiredRun) 11 ∧
      (opened datedScene).Regular entryStored (script expiredRun) datedEntry.key 11 ∧
      [0, 4, 8, 9].map (fun moment => stampsOf (expiredCrowd moment)) =
        [(none, some 10), (some 10, some 10), (some 11, some 10), (some 11, some 11)] := by
  refine ⟨rfl, renews_after rfl (script expiredRun) 11, ?_, by decide +kernel⟩
  constructor
  case own =>
    intro moment hlt
    apply ownStamp_shelf
    interval_cases moment <;> exact nofun
  case kept =>
    unfold KeepsEntry
    decide +kernel
  case bounded => decide +kernel
  case forced =>
    have hunforced : forall moment, moment < 11 -> forall caller,
        caller ∈ (expiredCrowd moment).callers -> caller.call.options.forceFresh = false := by
      decide +kernel
    exact fun moment hlt => forcedPast_of_unforced (hunforced moment hlt)

def forcedRun : List (Move EntryShelf String) :=
  let next := Move.advance 0 5
  [.start (.file ⟨"a"⟩) ⟨none, .zero, true⟩, next, next, next, next,
    .deliver 0 5 (.ok ⟨"w", []⟩), next]

def forcedCrowd (moment : Nat) : Crowd EntryShelf String :=
  (opened datedScene).after entryStored (script forcedRun) moment

/-- A call that is told not to look overwrites an entry with an older one. -/
theorem overwrites_newer :
    exists persisted old, (forcedCrowd 6).Saves (script forcedRun 6) persisted ∧
      entryStored.stored persisted.key (forcedCrowd 6).scene.disk = some old ∧
      persisted.entry.created = 5 ∧ old.created = 10 ∧
      [6, 7].map (fun moment => stampsOf (forcedCrowd moment)) =
        [(some 5, some 10), (some 5, some 5)] := by
  refine ⟨_, _, ⟨0, 5, _, rfl, rfl, _, rfl⟩, rfl, rfl, rfl, ?_⟩
  decide +kernel

end Crowd
end LessonPress

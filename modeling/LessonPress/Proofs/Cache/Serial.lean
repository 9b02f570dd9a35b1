import LessonPress.Proofs.Cache.EntryCodec
import LessonPress.Proofs.Cache.Mirror
import LessonPress.Proofs.Cache.Orderly

/-!
# Calls one after the other

## Memory and store in a run where the calls on a key do not overlap

A call is busy from its first step to its last.  While it works on the key, no other
call that works on the key takes a step, and the key is not dropped.  Calls on other
keys come in between as they like, and the disk may change at any moment.  The store is
seen through what it gives for the key.
-/

namespace LessonPress

namespace Call

variable {alpha : Type} {call : Call alpha}

def Busy (call : Call alpha) : Prop :=
  call.phase ≠ .opening ∧ call.result? = none

theorem phase_of_not_busy (h : ¬ call.Busy) :
    call.phase = .opening ∨ exists result, call.phase = .done result := by
  by_cases hopening : call.phase = .opening
  · exact Or.inl hopening
  · cases hresult : call.result? with
    | none => exact absurd ⟨hopening, hresult⟩ h
    | some result => exact Or.inr ⟨result, phase_of_result? hresult⟩

theorem mirrors_of_not_busy (h : ¬ call.Busy) (key : String) (cache : Cache alpha)
    (found : Except Error (Option (PersistedEntry alpha))) : call.Mirrors key cache found := by
  unfold Mirrors
  rcases phase_of_not_busy h with hphase | ⟨result, hphase⟩
  · rw [hphase]
    exact trivial
  · rw [hphase]
    exact trivial

theorem Saves.busy {persisted : PersistedEntry alpha} (h : call.Saves persisted) :
    call.Busy := by
  rcases h with ⟨ticket, hphase⟩
  unfold Busy result?
  rw [hphase]
  exact ⟨by simp, rfl⟩

end Call

namespace Crowd

variable {sigma alpha : Type}

def Apart (crowd : Crowd sigma alpha) (key : String) (index : Nat) : Prop :=
  forall (place : Nat) (caller : Caller alpha), crowd.callers[place]? = some caller ->
    caller.call.Busy -> caller.call.Concerns key crowd.scene.cache -> place = index

def Idle (crowd : Crowd sigma alpha) (key : String) : Prop :=
  forall caller, caller ∈ crowd.callers -> caller.call.Busy ->
    ¬ caller.call.Concerns key crowd.scene.cache

def Alone (crowd : Crowd sigma alpha) (key : String) : Move sigma alpha -> Prop
  | .start _ _ => True
  | .advance index _ => forall caller, crowd.callers[index]? = some caller ->
      caller.call.Concerns key crowd.scene.cache -> crowd.Apart key index
  | .deliver index _ _ => forall caller, crowd.callers[index]? = some caller ->
      caller.call.Concerns key crowd.scene.cache -> crowd.Apart key index
  | .invalidate other => other.text = key -> crowd.Idle key
  | .clear => crowd.Idle key
  | .disturb _ => True

def Saves (crowd : Crowd sigma alpha) (move : Move sigma alpha)
    (persisted : PersistedEntry alpha) : Prop :=
  exists (index : Nat) (now : UInt64) (caller : Caller alpha), move = .advance index now ∧
    crowd.callers[index]? = some caller ∧ caller.call.Saves persisted

def Removes (crowd : Crowd sigma alpha) (move : Move sigma alpha) (key : String) : Prop :=
  (exists (index : Nat) (now : UInt64) (caller : Caller alpha), move = .advance index now ∧
      crowd.callers[index]? = some caller ∧ caller.call.Removes key) ∨
    exists other, move = .invalidate other ∧ other.text = key

theorem saves_advance {crowd : Crowd sigma alpha} {index : Nat} {caller : Caller alpha}
    (hcaller : crowd.callers[index]? = some caller) (now : UInt64)
    (persisted : PersistedEntry alpha) :
    crowd.Saves (.advance index now) persisted <-> caller.call.Saves persisted := by
  constructor
  · rintro ⟨place, time, other, hmove, hother, hsaves⟩
    cases hmove
    rw [hcaller] at hother
    cases hother
    exact hsaves
  · intro hsaves
    exact ⟨index, now, caller, rfl, hcaller, hsaves⟩

theorem removes_advance {crowd : Crowd sigma alpha} {index : Nat} {caller : Caller alpha}
    (hcaller : crowd.callers[index]? = some caller) (now : UInt64) (key : String) :
    crowd.Removes (.advance index now) key <-> caller.call.Removes key := by
  constructor
  · rintro (⟨place, time, other, hmove, hother, hremoves⟩ | ⟨other, hmove, _⟩)
    · cases hmove
      rw [hcaller] at hother
      cases hother
      exact hremoves
    · cases hmove
  · intro hremoves
    exact Or.inl ⟨index, now, caller, rfl, hcaller, hremoves⟩

/-- The store gives nothing for the key if the move removes it, and the same as before if
the move neither removes the key nor saves an entry of it. -/
structure Heeds (store : Store sigma alpha) (key : String) (crowd next : Crowd sigma alpha)
    (move : Move sigma alpha) : Prop where
  removed : crowd.Removes move key -> store.found key next.scene.disk = .ok none
  kept : (forall persisted, crowd.Saves move persisted -> persisted.key ≠ key) ->
    ¬ crowd.Removes move key ->
    store.found key next.scene.disk = store.found key crowd.scene.disk

section Run

variable [Disk sigma] (setup : CacheSetup sigma alpha) (moves : Nat -> Move sigma alpha)
  (json : JsonStore alpha) (store : Store sigma alpha) (key : String) (count : Nat)

def Serial (crowd : Crowd sigma alpha) : Prop :=
  forall moment, moment < count -> (crowd.after setup moves moment).Alone key (moves moment)

def foundAt (crowd : Crowd sigma alpha) (moment : Nat) :
    Except Error (Option (PersistedEntry alpha)) :=
  store.found key (crowd.after setup moves moment).scene.disk

/-- The store works: after an entry was saved under the key, it gives what the text of
the entry is read as, and only another saving or a removal of the key changes that. -/
structure Retains (crowd : Crowd sigma alpha) : Prop where
  saved : forall moment persisted, moment < count ->
    (crowd.after setup moves moment).Saves (moves moment) persisted -> persisted.key = key ->
    crowd.foundAt setup moves store key (moment + 1) = json.reread persisted
  removed : forall moment, moment < count ->
    (crowd.after setup moves moment).Removes (moves moment) key ->
    crowd.foundAt setup moves store key (moment + 1) = .ok none
  kept : forall moment, moment < count ->
    (forall persisted, (crowd.after setup moves moment).Saves (moves moment) persisted ->
      persisted.key ≠ key) ->
    ¬ (crowd.after setup moves moment).Removes (moves moment) key ->
    crowd.foundAt setup moves store key (moment + 1) = crowd.foundAt setup moves store key moment

def Exact (crowd : Crowd sigma alpha) : Prop :=
  forall moment persisted, moment < count ->
    (crowd.after setup moves moment).Saves (moves moment) persisted -> persisted.key = key ->
    persisted.Exact

end Run

structure Mirrored (store : Store sigma alpha) (key : String) (crowd : Crowd sigma alpha) :
    Prop where
  memory : (exists caller, caller ∈ crowd.callers ∧
      exists persisted, caller.call.Saves persisted ∧ persisted.key = key) ∨
    crowd.scene.cache.Mirrors key (store.found key crowd.scene.disk)
  calls : forall caller, caller ∈ crowd.callers ->
    caller.call.Mirrors key crowd.scene.cache (store.found key crowd.scene.disk)

section Play

variable {crowd next : Crowd sigma alpha} {store : Store sigma alpha} {key : String}
  {index : Nat} {caller after : Caller alpha}

theorem Mirrored.saves_concerns (h : crowd.Mirrored store key)
    (hmem : caller ∈ crowd.callers) {persisted : PersistedEntry alpha}
    (hsaves : caller.call.Saves persisted) (hkey : persisted.key = key) :
    caller.call.Concerns key crowd.scene.cache := by
  have hmirrors := h.calls caller hmem
  rcases hsaves with ⟨ticket, hphase⟩
  unfold Call.Mirrors at hmirrors
  rw [hphase] at hmirrors
  exact Or.inl (hmirrors.left.symm.trans hkey)

theorem Mirrored.memory_of (h : crowd.Mirrored store key)
    (hcaller : crowd.callers[index]? = some caller) (hapart : crowd.Apart key index) :
    (exists persisted, caller.call.Saves persisted ∧ persisted.key = key) ∨
      crowd.scene.cache.Mirrors key (store.found key crowd.scene.disk) := by
  rcases h.memory with ⟨other, hmem, persisted, hsaves, hkey⟩ | hmirrors
  · obtain ⟨place, hplace⟩ := List.mem_iff_getElem?.mp hmem
    have hindex := hapart place other hplace hsaves.busy (h.saves_concerns hmem hsaves hkey)
    rw [hindex, hcaller] at hplace
    cases hplace
    exact Or.inl ⟨persisted, hsaves, hkey⟩
  · exact Or.inr hmirrors

theorem Mirrored.other (h : crowd.Mirrored store key) (hmem : caller ∈ crowd.callers)
    (hnot : caller.call.Busy -> ¬ caller.call.Concerns key crowd.scene.cache)
    (cache : Cache alpha) (found : Except Error (Option (PersistedEntry alpha))) :
    caller.call.Mirrors key cache found := by
  by_cases hbusy : caller.call.Busy
  · exact (h.calls caller hmem).of_not_concerns (hnot hbusy) cache found
  · exact Call.mirrors_of_not_busy hbusy key cache found

theorem Mirrored.act (h : crowd.Mirrored store key)
    (hcaller : crowd.callers[index]? = some caller)
    (hcallers : next.callers = crowd.callers.set index after) (hapart : crowd.Apart key index)
    (hafter : after.call.Mirrors key next.scene.cache (store.found key next.scene.disk))
    (hmemory : (exists persisted, after.call.Saves persisted ∧ persisted.key = key) ∨
      next.scene.cache.Mirrors key (store.found key next.scene.disk)) :
    next.Mirrored store key := by
  constructor
  · rcases hmemory with hsaves | hmirrors
    · refine Or.inl ⟨after, ?_, hsaves⟩
      rw [hcallers]
      have hlt := (List.getElem?_eq_some_iff.mp hcaller).choose
      exact List.mem_set hlt after
    · exact Or.inr hmirrors
  · intro other hmem
    rw [hcallers] at hmem
    obtain ⟨place, hplace⟩ := List.mem_iff_getElem?.mp hmem
    rcases getElem?_set_cases hplace with ⟨_, hsame⟩ | ⟨hne, hold⟩
    · rw [hsame]
      exact hafter
    · apply h.other (List.mem_of_getElem? hold)
      intro hbusy hconcerns
      exact hne (hapart place other hold hbusy hconcerns)

theorem Mirrored.elsewhere (h : crowd.Mirrored store key)
    (hcaller : crowd.callers[index]? = some caller)
    (hcallers : next.callers = crowd.callers.set index after)
    (hnot : ¬ caller.call.Concerns key crowd.scene.cache)
    (hafter : after.call.Mirrors key next.scene.cache (store.found key next.scene.disk))
    (hentries : next.scene.cache.entries.find? key = crowd.scene.cache.entries.find? key)
    (hrecords : next.scene.cache.records.find? key = crowd.scene.cache.records.find? key)
    (hfound : store.found key next.scene.disk = store.found key crowd.scene.disk) :
    next.Mirrored store key := by
  constructor
  · rcases h.memory with ⟨saver, hmem, persisted, hsaves, hkey⟩ | hmirrors
    · have hsaver : saver ≠ caller := by
        intro hsame
        rw [hsame] at hmem hsaves
        exact hnot (h.saves_concerns hmem hsaves hkey)
      obtain ⟨place, hplace⟩ := List.mem_iff_getElem?.mp hmem
      rcases getElem?_set_of hcaller after hplace with ⟨hsame, _⟩ | hkept
      · exact absurd hsame hsaver
      · rw [← hcallers] at hkept
        exact Or.inl ⟨saver, List.mem_of_getElem? hkept, persisted, hsaves, hkey⟩
    · rw [hfound]
      exact Or.inr (hmirrors.of_same hentries hrecords)
  · intro other hmem
    rw [hcallers] at hmem
    rcases List.mem_or_eq_of_mem_set hmem with hold | hnew
    · rw [hfound]
      exact (h.calls other hold).frame hentries hrecords
    · rw [hnew]
      exact hafter

theorem Mirrored.stay (h : crowd.Mirrored store key) (hcallers : next.callers = crowd.callers)
    (hentries : next.scene.cache.entries.find? key = crowd.scene.cache.entries.find? key)
    (hrecords : next.scene.cache.records.find? key = crowd.scene.cache.records.find? key)
    (hfound : store.found key next.scene.disk = store.found key crowd.scene.disk) :
    next.Mirrored store key := by
  constructor
  · rw [hcallers, hfound]
    rcases h.memory with hsaves | hmirrors
    · exact Or.inl hsaves
    · exact Or.inr (hmirrors.of_same hentries hrecords)
  · rw [hcallers, hfound]
    intro caller hmem
    exact (h.calls caller hmem).frame hentries hrecords

theorem Mirrored.idle (h : crowd.Mirrored store key) (hcallers : next.callers = crowd.callers)
    (hidle : crowd.Idle key)
    (hmemory : next.scene.cache.Mirrors key (store.found key next.scene.disk)) :
    next.Mirrored store key := by
  constructor
  · exact Or.inr hmemory
  · intro caller hmem
    rw [hcallers] at hmem
    exact h.other hmem (hidle caller hmem) _ _

section Moves

variable [Disk sigma] {setup : CacheSetup sigma alpha} {now : UInt64}

theorem Mirrored.advance (h : crowd.Mirrored store key) (hstore : setup.store = some store)
    (halone : crowd.Alone key (.advance index now))
    (hsaved : forall persisted, crowd.Saves (.advance index now) persisted ->
      persisted.key = key ->
      store.found key (crowd.play setup (.advance index now)).scene.disk = .ok (some persisted))
    (hkept : (forall persisted, crowd.Saves (.advance index now) persisted ->
        persisted.key ≠ key) ->
      ¬ crowd.Removes (.advance index now) key ->
      store.found key (crowd.play setup (.advance index now)).scene.disk =
        store.found key crowd.scene.disk) :
    (crowd.play setup (.advance index now)).Mirrored store key := by
  rcases play_advance_cases setup crowd index now with
    ⟨_, hscene, hcallers⟩ | ⟨caller, after, hcaller, hafter, hscene, hcallers⟩
  · apply h.stay hcallers
    · rw [hscene]
    · rw [hscene]
    · rw [hscene]
  · have hmem := List.mem_of_getElem? hcaller
    have hcall := h.calls caller hmem
    simp only [saves_advance hcaller, removes_advance hcaller] at hsaved hkept
    rw [hscene] at hsaved hkept
    have hkept' : (forall persisted, ¬ caller.call.Saves persisted) ->
        ¬ caller.call.Removes key ->
        store.found key (caller.call.step setup now crowd.scene).2.disk =
          store.found key crowd.scene.disk :=
      fun hsaves => hkept fun persisted hsave => absurd hsave (hsaves persisted)
    by_cases hconcerns : caller.call.Concerns key crowd.scene.cache
    · have hapart := halone caller hcaller hconcerns
      have hmemory := h.memory_of hcaller hapart
      refine h.act hcaller hcallers hapart ?_ (Or.inr ?_)
      · rw [hscene, hafter]
        refine Call.step_call_mirrors hstore hcall ?_ hkept'
        intro _
        rcases hmemory with ⟨persisted, hsaves, _⟩ | hmirrors
        · exact Or.inl ⟨persisted, hsaves⟩
        · exact Or.inr hmirrors
      · rw [hscene]
        exact Call.step_cache_mirrors hcall hmemory hsaved hkept
    · have hkeeps := Call.step_keeps setup now hconcerns
      refine h.elsewhere hcaller hcallers hconcerns ?_ ?_ ?_ ?_
      · rw [hscene, hafter]
        refine Call.step_call_mirrors hstore hcall ?_ hkept'
        intro hkey
        exact absurd (Or.inl hkey) hconcerns
      · rw [hscene]
        exact hkeeps.left
      · rw [hscene]
        exact hkeeps.right
      · rw [hscene]
        apply hkept
        · intro persisted hsaves hkey
          exact hconcerns (h.saves_concerns hmem hsaves hkey)
        · rintro ⟨ticket, value, hphase⟩
          apply hconcerns
          unfold Call.Concerns
          rw [hphase]
          exact Or.inr rfl

theorem Mirrored.deliver {outcome : Except Error (Computed alpha)} (h : crowd.Mirrored store key)
    (halone : crowd.Alone key (.deliver index now outcome)) :
    (crowd.play setup (.deliver index now outcome)).Mirrored store key := by
  rcases play_deliver_cases setup crowd index now outcome with
    ⟨hscene, hcallers⟩ |
      ⟨caller, after, ticket, primary, hcaller, hphase, hafter, hscene, hcallers⟩
  · apply h.stay hcallers
    · rw [hscene]
    · rw [hscene]
    · rw [hscene]
  · have hmemory : caller.call.keyText = key ->
        crowd.scene.cache.Mirrors key (store.found key crowd.scene.disk) := by
      intro hkey
      rcases h.memory_of hcaller (halone caller hcaller (Or.inl hkey)) with
        ⟨persisted, ⟨other, hsaving⟩, _⟩ | hmirrors
      · rw [hphase] at hsaving
        cases hsaving
      · exact hmirrors
    have hdisk := Call.complete_disk now caller.call crowd.scene outcome
    have hcomplete := Call.complete_mirrors now outcome hmemory ⟨ticket, primary, hphase⟩
    by_cases hkey : caller.call.keyText = key
    · refine h.act hcaller hcallers (halone caller hcaller (Or.inl hkey)) ?_ ?_
      · rw [hscene, hafter, hdisk]
        exact hcomplete.left
      · rw [hscene, hafter, hdisk]
        exact hcomplete.right hkey
    · have hnot : ¬ caller.call.Concerns key crowd.scene.cache := by
        unfold Call.Concerns
        rw [hphase]
        simp [hkey]
      have hkeeps := Call.complete_keeps now crowd.scene outcome (Ne.symm hkey)
      refine h.elsewhere hcaller hcallers hnot ?_ ?_ ?_ ?_
      · rw [hscene, hafter, hdisk]
        exact hcomplete.left
      · rw [hscene]
        exact hkeeps.left
      · rw [hscene]
        exact hkeeps.right
      · rw [hscene, hdisk]

theorem Mirrored.invalidate {other : CacheKey} (h : crowd.Mirrored store key)
    (halone : crowd.Alone key (.invalidate other))
    (hkept : other.text ≠ key ->
      store.found key (crowd.play setup (.invalidate other)).scene.disk =
        store.found key crowd.scene.disk) :
    (crowd.play setup (.invalidate other)).Mirrored store key := by
  have hcontents := Call.invalidate_contents setup crowd.scene other
  have hcallers : (crowd.play setup (.invalidate other)).callers = crowd.callers := rfl
  by_cases hkey : other.text = key
  · apply h.idle hcallers (halone hkey)
    apply Cache.mirrors_of_none
    change (crowd.scene.invalidate setup other).cache.entries.find? key = none
    rw [hcontents.left, hkey]
    exact Table.find?_erase_self _ key
  · refine h.stay hcallers ?_ ?_ (hkept hkey)
    · change (crowd.scene.invalidate setup other).cache.entries.find? key = _
      rw [hcontents.left]
      exact Table.find?_erase_of_ne _ (Ne.symm hkey)
    · change (crowd.scene.invalidate setup other).cache.records.find? key = _
      rw [hcontents.right]
      exact Table.find?_erase_of_ne _ (Ne.symm hkey)

theorem Mirrored.play {move : Move sigma alpha} (h : crowd.Mirrored store key)
    (hstore : setup.store = some store) (halone : crowd.Alone key move)
    (hsaved : forall persisted, crowd.Saves move persisted -> persisted.key = key ->
      store.found key (crowd.play setup move).scene.disk = .ok (some persisted))
    (hkept : (forall persisted, crowd.Saves move persisted -> persisted.key ≠ key) ->
      ¬ crowd.Removes move key ->
      store.found key (crowd.play setup move).scene.disk =
        store.found key crowd.scene.disk) :
    (crowd.play setup move).Mirrored store key := by
  -- only a step of a call can save
  have hkept' : (forall index now, move ≠ .advance index now) ->
      (forall other, move = .invalidate other -> other.text ≠ key) ->
      store.found key (crowd.play setup move).scene.disk =
        store.found key crowd.scene.disk := by
    intro hadvance hinvalidate
    apply hkept
    · rintro persisted ⟨index, now, caller, hmove, _⟩
      exact absurd hmove (hadvance index now)
    · rintro (⟨index, now, caller, hmove, _⟩ | ⟨other, hmove, hkey⟩)
      · exact absurd hmove (hadvance index now)
      · exact hinvalidate other hmove hkey
  cases move with
  | start other options =>
      constructor
      · rcases h.memory with ⟨caller, hmem, hsaves⟩ | hmirrors
        · exact Or.inl ⟨caller, List.mem_append_left _ hmem, hsaves⟩
        · exact Or.inr hmirrors
      · intro caller hmem
        rcases List.mem_append.mp hmem with hold | hnew
        · exact h.calls caller hold
        · rw [List.mem_singleton.mp hnew]
          exact trivial
  | advance index now => exact h.advance hstore halone hsaved hkept
  | deliver index now outcome => exact h.deliver halone
  | invalidate other =>
      apply h.invalidate halone
      intro hkey
      apply hkept' (by simp)
      rintro text htext
      cases htext
      exact hkey
  | clear =>
      refine h.idle ?_ halone (Cache.mirrors_of_none _ rfl)
      rfl
  | disturb disk => exact h.stay rfl rfl rfl (hkept' (by simp) (by simp))

end Moves
end Play

/-- In a serial run on a store that works, memory goes with the store at every moment. -/
theorem mirrored_after [Disk sigma] {setup : CacheSetup sigma alpha}
    {moves : Nat -> Move sigma alpha} {json : JsonStore alpha} {store : Store sigma alpha}
    {key : String} {count : Nat} {scene : Scene sigma alpha} (hstore : setup.store = some store)
    (hentry : scene.cache.entries.find? key = none) (hcodec : json.codec.Faithful)
    (hserial : (opened scene).Serial setup moves key count)
    (hretains : (opened scene).Retains setup moves json store key count)
    (hexact : (opened scene).Exact setup moves key count) {moment : Nat} (hle : moment ≤ count) :
    ((opened scene).after setup moves moment).Mirrored store key := by
  induction moment with
  | zero =>
      constructor
      · exact Or.inr (Cache.mirrors_of_none _ hentry)
      · intro caller hmem
        cases hmem
  | succ moment ih =>
      apply (ih (Nat.le_of_succ_le hle)).play hstore (hserial moment hle)
      · intro persisted hsaves hkey
        rw [← JsonStore.reread_eq hcodec (hexact moment persisted hle hsaves hkey)]
        exact hretains.saved moment persisted hle hsaves hkey
      · exact hretains.kept moment hle

end Crowd

/-!
# Stores that work on every disk
-/

namespace Store

variable {sigma alpha : Type} {json : JsonStore alpha} {store : Store sigma alpha}

structure Lawful (json : JsonStore alpha) (store : Store sigma alpha) : Prop where
  load : forall key disk, (store.load key disk).2 = disk
  save : forall key persisted disk,
    store.found key (store.save persisted disk).2 =
      if key = persisted.key then json.reread persisted else store.found key disk
  remove : forall key other disk,
    store.found key (store.remove other disk).2 =
      if key = other then .ok none else store.found key disk

/-- The store is a map from keys to entries, whatever it makes of an entry that is saved. -/
structure Steady (store : Store sigma alpha) : Prop where
  load : forall key disk, (store.load key disk).2 = disk
  save : forall key persisted disk, key ≠ persisted.key ->
    store.found key (store.save persisted disk).2 = store.found key disk
  remove : forall key other disk,
    store.found key (store.remove other disk).2 =
      if key = other then .ok none else store.found key disk

theorem Lawful.steady (h : Lawful json store) : Steady store where
  load := h.load
  save := fun key persisted disk hkey => (h.save key persisted disk).trans (if_neg hkey)
  remove := h.remove

variable [Disk sigma] {setup : CacheSetup sigma alpha}

theorem Steady.heeds (h : Steady store) (hstore : setup.store = some store) {key : String}
    {crowd : Crowd sigma alpha} {move : Move sigma alpha}
    (hdisturb : forall disk, move = .disturb disk ->
      store.found key disk = store.found key crowd.scene.disk) :
    crowd.Heeds store key (crowd.play setup move) move := by
  constructor
  case removed =>
    rintro (⟨index, now, caller, rfl, hcaller, ticket, value, hphase⟩ | ⟨other, rfl, hkey⟩)
    · rw [Crowd.disk_advance _ now hcaller, Call.step_disk_eq, hstore, hphase]
      exact (h.remove key key _).trans (if_pos rfl)
    · rw [Crowd.disk_invalidate hstore, h.remove]
      exact if_pos hkey.symm
  case kept =>
    intro hsaves hremoves
    cases move with
    | start other options => rfl
    | advance index now =>
        cases hcaller : crowd.callers[index]? with
        | none => rw [Crowd.disk_advance_of_none _ now hcaller]
        | some caller =>
            rw [Crowd.disk_advance _ now hcaller, Call.step_disk_eq, hstore]
            dsimp only
            split
            · rw [h.load]
            · rename_i ticket persisted hphase
              apply h.save
              intro hkey
              exact hsaves persisted ⟨index, now, caller, rfl, hcaller, ticket, hphase⟩ hkey.symm
            · rename_i ticket value previous hphase
              rw [h.remove]
              apply if_neg
              intro hkey
              subst hkey
              exact hremoves (Or.inl ⟨index, now, caller, rfl, hcaller, ticket, value, hphase⟩)
            · rfl
    | deliver index now outcome => rw [Crowd.disk_deliver]
    | invalidate other =>
        rw [Crowd.disk_invalidate hstore, h.remove]
        apply if_neg
        intro hkey
        exact hremoves (Or.inr ⟨other, rfl, hkey.symm⟩)
    | clear => rfl
    | disturb disk => exact hdisturb disk rfl

/-- A lawful store works along every run, if nothing else changes what it holds. -/
theorem Lawful.retains (h : Lawful json store) (hstore : setup.store = some store)
    {moves : Nat -> Move sigma alpha} {key : String} {count : Nat} {crowd : Crowd sigma alpha}
    (hdisturb : forall moment disk, moment < count -> moves moment = .disturb disk ->
      store.found key disk = crowd.foundAt setup moves store key moment) :
    crowd.Retains setup moves json store key count := by
  have hheeds : forall moment, moment < count ->
      (crowd.after setup moves moment).Heeds store key (crowd.after setup moves (moment + 1))
        (moves moment) := fun moment hlt =>
    h.steady.heeds hstore fun disk hmove => hdisturb moment disk hlt hmove
  constructor
  case saved =>
    rintro moment persisted _ ⟨index, now, caller, hmove, hcaller, ticket, hphase⟩ hkey
    change store.found key
      ((crowd.after setup moves moment).play setup (moves moment)).scene.disk = _
    rw [hmove, Crowd.disk_advance _ now hcaller, Call.step_disk_eq, hstore, hphase]
    exact (h.save key persisted _).trans (if_pos hkey.symm)
  case removed => exact fun moment hlt => (hheeds moment hlt).removed
  case kept => exact fun moment hlt => (hheeds moment hlt).kept

end Store
end LessonPress

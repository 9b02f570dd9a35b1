import LessonPress.Proofs.Cache.Crowd

/-!
# Contents of a cache

## Where entries and tracked files come from

Entries come into memory from the store or from a computation, and tracked files from
there or from a check that has found some of them moved.  Everything else leaves them
alone or drops them.
-/

namespace LessonPress

inductive Cache.Turn {alpha : Type} (call : Call alpha) (cache next : Cache alpha) : Prop where
  | same : next.entries = cache.entries -> next.records = cache.records -> Turn call cache next
  | dropped (other : String) :
      (exists ticket value outcome, call.phase = .saved ticket value outcome) ->
      cache.currentKeys.find? call.key.path.components = some other ->
      next.entries = cache.entries.erase other -> next.records = cache.records.erase other ->
      Turn call cache next
  | restored (persisted : PersistedEntry alpha) :
      call.phase = .restoring (.ok (some persisted)) ->
      next.entries = cache.entries.insert call.keyText persisted.entry ->
      next.records = cache.records.insert call.keyText persisted.tracked -> Turn call cache next
  | refreshed (entry : CacheEntry alpha) (checked : List TrackedFile) :
      call.phase = .scanning entry checked true [] -> next.entries = cache.entries ->
      next.records = cache.records.insert call.keyText checked -> Turn call cache next

namespace Call

variable {sigma alpha : Type}

theorem judge_cache (setup : CacheSetup sigma alpha) (now : UInt64) (call : Call alpha)
    (scene : Scene sigma alpha) (entry : CacheEntry alpha) :
    (call.judge setup now scene entry).2.cache = scene.cache := by
  unfold judge
  split
  · rfl
  · split
    · rfl
    · split <;> rfl

theorem emitFailure_cache (scene : Scene sigma alpha) (key : String)
    (outcome : Except Error Unit) : (scene.emitFailure key outcome).cache = scene.cache := by
  cases outcome with
  | ok _ => rfl
  | error cause => rfl

theorem step_turn [Disk sigma] (setup : CacheSetup sigma alpha) (now : UInt64)
    (call : Call alpha) (scene : Scene sigma alpha) :
    scene.cache.Turn call (call.step setup now scene).2.cache := by
  unfold step
  cases hphase : call.phase with
  | opening =>
      refine .same ?_ ?_ <;>
      · dsimp only [openCall]
        split
        · rfl
        · split
          · rw [judge_cache]
          · rfl
  | loading =>
      refine .same ?_ ?_ <;>
      · dsimp only [load]
        split <;> rfl
  | restoring loaded =>
      dsimp only [restore]
      cases loaded with
      | error cause => exact .same rfl rfl
      | ok found =>
          cases found with
          | none => exact .same rfl rfl
          | some persisted =>
              dsimp only
              split
              · refine .same ?_ ?_ <;> rw [judge_cache]
              · refine .restored persisted hphase ?_ ?_ <;>
                · rw [judge_cache]
                  rfl
  | scanning entry checked touched pending =>
      dsimp only [scan]
      cases pending with
      | nil =>
          cases touched with
          | true => exact .refreshed entry checked hphase rfl rfl
          | false => exact .same rfl rfl
      | cons file rest =>
          dsimp only
          split <;> exact .same rfl rfl
  | hashing entry checked file current pending =>
      dsimp only [compare]
      split <;> exact .same rfl rfl
  | missed stale seen =>
      dsimp only [enter]
      split
      · exact .same rfl rfl
      · split <;> exact .same rfl rfl
  | capturing ticket =>
      dsimp only [capture]
      split <;> exact .same rfl rfl
  | reading ticket fingerprint =>
      dsimp only [read]
      split <;> exact .same rfl rfl
  | computing ticket primary => exact .same rfl rfl
  | saving ticket persisted =>
      dsimp only [save]
      split <;> exact .same rfl rfl
  | saved ticket value outcome =>
      have hcache := emitFailure_cache scene call.keyText outcome
      dsimp only [supersede]
      split
      · refine .same ?_ ?_ <;>
        · rw [← hcache]
          rfl
      · rename_i previous hprevious
        rw [hcache] at hprevious
        split
        · refine .same ?_ ?_ <;>
          · rw [← hcache]
            rfl
        · refine .dropped previous ⟨ticket, value, outcome, hphase⟩ hprevious ?_ ?_ <;>
          · rw [← hcache]
            rfl
  | removing ticket value previous =>
      dsimp only [remove, Scene.removeStored]
      split <;> exact .same rfl rfl
  | removed ticket value previous outcome =>
      have hcache := emitFailure_cache scene previous outcome
      dsimp only [reportSuperseded]
      refine .same ?_ ?_ <;>
      · rw [← hcache]
        rfl
  | waiting ticket =>
      dsimp only [receive]
      split
      · exact .same rfl rfl
      · refine .same ?_ ?_ <;>
        · split <;>
          · dsimp only [Scene.emit, release]
            split <;> rfl
  | done result => exact .same rfl rfl

theorem judge_disk (setup : CacheSetup sigma alpha) (now : UInt64) (call : Call alpha)
    (scene : Scene sigma alpha) (entry : CacheEntry alpha) :
    (call.judge setup now scene entry).2.disk = scene.disk := by
  unfold judge
  split
  · rfl
  · split
    · rfl
    · split <;> rfl

theorem emitFailure_disk (scene : Scene sigma alpha) (key : String)
    (outcome : Except Error Unit) : (scene.emitFailure key outcome).disk = scene.disk := by
  cases outcome with
  | ok _ => rfl
  | error cause => rfl

theorem complete_disk (now : UInt64) (call : Call alpha) (scene : Scene sigma alpha)
    (outcome : Except Error (Computed alpha)) :
    (call.complete now scene outcome).2.disk = scene.disk := by
  unfold complete
  split
  · cases outcome <;> rfl
  · rfl

theorem step_disk_eq [Disk sigma] (setup : CacheSetup sigma alpha) (now : UInt64)
    (call : Call alpha) (scene : Scene sigma alpha) :
    (call.step setup now scene).2.disk =
      match setup.store with
      | none => scene.disk
      | some store =>
          match call.phase with
          | .loading => (store.load call.keyText scene.disk).2
          | .saving _ persisted => (store.save persisted scene.disk).2
          | .removing _ _ previous => (store.remove previous scene.disk).2
          | _ => scene.disk := by
  have hkept : scene.disk = match setup.store with
      | none => scene.disk
      | some _ => scene.disk := by
    cases setup.store <;> rfl
  unfold step
  cases hphase : call.phase with
  | opening =>
      refine Eq.trans ?_ hkept
      dsimp only [openCall]
      split
      · rfl
      · split
        · exact judge_disk ..
        · rfl
  | loading =>
      dsimp only [load]
      cases setup.store <;> rfl
  | restoring loaded =>
      refine Eq.trans ?_ hkept
      dsimp only [restore]
      split
      · rfl
      · rfl
      · split
        · exact judge_disk ..
        · rw [judge_disk]
          rfl
  | scanning entry checked touched pending =>
      refine Eq.trans ?_ hkept
      dsimp only [scan]
      split
      · rfl
      · split <;> rfl
  | hashing entry checked file current pending =>
      refine Eq.trans ?_ hkept
      dsimp only [compare]
      split <;> rfl
  | missed stale seen =>
      refine Eq.trans ?_ hkept
      dsimp only [enter]
      split
      · rfl
      · split <;> rfl
  | capturing ticket =>
      refine Eq.trans ?_ hkept
      dsimp only [capture]
      split <;> rfl
  | reading ticket fingerprint =>
      refine Eq.trans ?_ hkept
      dsimp only [read]
      split <;> rfl
  | computing ticket primary => exact hkept
  | saving ticket persisted =>
      dsimp only [save]
      cases setup.store <;> rfl
  | saved ticket value outcome =>
      refine Eq.trans ?_ hkept
      dsimp only [supersede]
      split
      · exact emitFailure_disk ..
      · split
        · exact emitFailure_disk ..
        · exact emitFailure_disk ..
  | removing ticket value previous =>
      dsimp only [remove, Scene.removeStored]
      cases setup.store <;> rfl
  | removed ticket value previous outcome =>
      refine Eq.trans ?_ hkept
      exact emitFailure_disk ..
  | waiting ticket =>
      refine Eq.trans ?_ hkept
      dsimp only [receive]
      split
      · rfl
      · split <;> rfl
  | done result => exact hkept

end Call

namespace Cache.Turn

variable {alpha : Type} {call : Call alpha} {cache next : Cache alpha}

theorem entry_cases (h : cache.Turn call next) {text : String} {entry : CacheEntry alpha}
    (hentry : next.entries.find? text = some entry) :
    cache.entries.find? text = some entry ∨
      (text = call.keyText ∧ exists persisted,
        call.phase = .restoring (.ok (some persisted)) ∧ entry = persisted.entry) := by
  cases h with
  | same hentries _ => exact Or.inl (hentries ▸ hentry)
  | dropped other _ _ hentries _ => exact Or.inl (Table.find?_of_erase (hentries ▸ hentry))
  | restored persisted hphase hentries _ =>
      rcases Table.find?_insert_cases (hentries ▸ hentry) with hold | ⟨hkey, hnew⟩
      · exact Or.inl hold
      · exact Or.inr ⟨hkey, persisted, hphase, hnew⟩
  | refreshed other checked _ hentries _ => exact Or.inl (hentries ▸ hentry)

theorem record_cases (h : cache.Turn call next) {text : String} {files : List TrackedFile}
    (hrecord : next.records.find? text = some files) :
    cache.records.find? text = some files ∨
      (text = call.keyText ∧ ((exists persisted,
          call.phase = .restoring (.ok (some persisted)) ∧ files = persisted.tracked) ∨
        exists entry, call.phase = .scanning entry files true [])) := by
  cases h with
  | same _ hrecords => exact Or.inl (hrecords ▸ hrecord)
  | dropped other _ _ _ hrecords => exact Or.inl (Table.find?_of_erase (hrecords ▸ hrecord))
  | restored persisted hphase _ hrecords =>
      rcases Table.find?_insert_cases (hrecords ▸ hrecord) with hold | ⟨hkey, hnew⟩
      · exact Or.inl hold
      · exact Or.inr ⟨hkey, Or.inl ⟨persisted, hphase, hnew⟩⟩
  | refreshed entry checked hphase _ hrecords =>
      rcases Table.find?_insert_cases (hrecords ▸ hrecord) with hold | ⟨hkey, hnew⟩
      · exact Or.inl hold
      · subst hnew
        exact Or.inr ⟨hkey, Or.inr ⟨entry, hphase⟩⟩

end Cache.Turn

namespace Call

variable {sigma alpha : Type}

theorem complete_entry_cases {now : UInt64} {call : Call alpha} {scene : Scene sigma alpha}
    {outcome : Except Error (Computed alpha)} {text : String} {entry : CacheEntry alpha}
    (h : (call.complete now scene outcome).2.cache.entries.find? text = some entry) :
    scene.cache.entries.find? text = some entry ∨
      (text = call.keyText ∧ exists ticket primary computed,
        call.phase = .computing ticket primary ∧ outcome = .ok computed ∧
          entry = (call.keep now scene.cache primary computed).1.entry) := by
  unfold complete at h
  split at h
  · rename_i ticket primary hphase
    cases outcome with
    | error cause => exact Or.inl h
    | ok computed =>
        rcases Table.find?_insert_cases h with hold | ⟨hkey, hnew⟩
        · exact Or.inl hold
        · exact Or.inr ⟨hkey, ticket, primary, computed, hphase, rfl, hnew⟩
  · exact Or.inl h

theorem complete_record_cases {now : UInt64} {call : Call alpha} {scene : Scene sigma alpha}
    {outcome : Except Error (Computed alpha)} {text : String} {files : List TrackedFile}
    (h : (call.complete now scene outcome).2.cache.records.find? text = some files) :
    scene.cache.records.find? text = some files ∨
      (text = call.keyText ∧ exists ticket file computed,
        call.phase = .computing ticket (some file) ∧ outcome = .ok computed ∧
          files = trackedFiles (some file) computed.dependencies) := by
  unfold complete at h
  split at h
  · rename_i ticket primary hphase
    cases outcome with
    | error cause => exact Or.inl h
    | ok computed =>
        cases primary with
        | none => exact Or.inl (Table.find?_of_erase h)
        | some file =>
            rcases Table.find?_insert_cases h with hold | ⟨hkey, hnew⟩
            · exact Or.inl hold
            · exact Or.inr ⟨hkey, ticket, file, computed, hphase, rfl, hnew⟩
  · exact Or.inl h

theorem invalidate_contents (setup : CacheSetup sigma alpha) (scene : Scene sigma alpha)
    (other : CacheKey) :
    (scene.invalidate setup other).cache.entries = scene.cache.entries.erase other.text ∧
      (scene.invalidate setup other).cache.records = scene.cache.records.erase other.text := by
  have hretire : (scene.cache.retire other).entries = scene.cache.entries ∧
      (scene.cache.retire other).records = scene.cache.records := by
    unfold Cache.retire
    split <;> exact ⟨rfl, rfl⟩
  unfold Scene.invalidate Scene.removeStored
  rw [emitFailure_cache, ← hretire.left, ← hretire.right]
  cases setup.store <;> exact ⟨rfl, rfl⟩

end Call

namespace Crowd

/-!
# What a move does to the disk
-/

variable {sigma alpha : Type} [Disk sigma] {setup : CacheSetup sigma alpha}
  {store : Store sigma alpha}

theorem disk_advance (crowd : Crowd sigma alpha) {index : Nat} (now : UInt64)
    {caller : Caller alpha} (hcaller : crowd.callers[index]? = some caller) :
    (crowd.play setup (.advance index now)).scene.disk =
      (caller.call.step setup now crowd.scene).2.disk := by
  change (crowd.actAt index _).scene.disk = _
  unfold actAt
  rw [hcaller]
  rfl

theorem disk_advance_of_none (crowd : Crowd sigma alpha) {index : Nat} (now : UInt64)
    (hcaller : crowd.callers[index]? = none) :
    (crowd.play setup (.advance index now)).scene.disk = crowd.scene.disk := by
  change (crowd.actAt index _).scene.disk = _
  unfold actAt
  rw [hcaller]

theorem disk_deliver (crowd : Crowd sigma alpha) (index : Nat) (now : UInt64)
    (outcome : Except Error (Computed alpha)) :
    (crowd.play setup (.deliver index now outcome)).scene.disk = crowd.scene.disk := by
  rcases play_deliver_cases setup crowd index now outcome with
    ⟨hscene, _⟩ | ⟨caller, _, _, _, _, _, _, hscene, _⟩
  · rw [hscene]
  · rw [hscene, Call.complete_disk]

theorem disk_invalidate (hstore : setup.store = some store) (crowd : Crowd sigma alpha)
    (other : CacheKey) :
    (crowd.play setup (.invalidate other)).scene.disk =
      (store.remove other.text crowd.scene.disk).2 := by
  change (crowd.scene.invalidate setup other).disk = _
  unfold Scene.invalidate Scene.removeStored
  rw [Call.emitFailure_disk, hstore]

/-- What the operations of the store do not touch is only changed from outside. -/
theorem play_view {beta : Type} (view : sigma -> beta) (hstore : setup.store = some store)
    (hload : forall key disk, view (store.load key disk).2 = view disk)
    (hsave : forall persisted disk, view (store.save persisted disk).2 = view disk)
    (hremove : forall key disk, view (store.remove key disk).2 = view disk)
    (crowd : Crowd sigma alpha) {move : Move sigma alpha}
    (hmove : forall disk, move ≠ .disturb disk) :
    view (crowd.play setup move).scene.disk = view crowd.scene.disk := by
  cases move with
  | start key options => rfl
  | advance index now =>
      cases hcaller : crowd.callers[index]? with
      | none => rw [disk_advance_of_none crowd now hcaller]
      | some caller =>
          rw [disk_advance crowd now hcaller, Call.step_disk_eq, hstore]
          dsimp only
          split
          · exact hload ..
          · exact hsave ..
          · exact hremove ..
          · rfl
  | deliver index now outcome => rw [disk_deliver]
  | invalidate other =>
      rw [disk_invalidate hstore]
      exact hremove ..
  | clear => rfl
  | disturb disk => exact absurd rfl (hmove disk)

end Crowd
end LessonPress

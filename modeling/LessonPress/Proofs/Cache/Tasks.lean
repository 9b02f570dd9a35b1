import LessonPress.Proofs.Cache.Arrivals
import LessonPress.Proofs.Cache.Serial

/-!
# Tasks of a call

## What a move does to memory, to the store and to the current keys

A call that has kept a value has to save it and to make its key the current one of the
file, and then to discard the key that was current before.  As long as no call at work is
interrupted, there is at most one such task, and each step of it does one thing.
-/

namespace LessonPress

namespace Phase

variable {alpha : Type}

/-- The call is at work: it has begun, and it does not wait at a miss, for its computation
or for a flight. -/
def isActing : Phase alpha -> Bool
  | .opening => false
  | .missed _ _ => false
  | .computing _ _ => false
  | .waiting _ => false
  | .done _ => false
  | _ => true

theorem isActing_of_isChecking {phase : Phase alpha} (h : phase.isChecking = true) :
    phase.isActing = true := by
  cases phase <;> first | rfl | cases h

end Phase

/-- What a call has still to do after it has kept a value: to save the value and make its
key the current one, or to discard the key that was current before. -/
inductive Task where
  | adopt (key : CacheKey)
  | discard (key : String)

namespace Call

variable {sigma alpha : Type}

def task? (call : Call alpha) : Option Task :=
  match call.phase with
  | .saving _ _ => some (.adopt call.key)
  | .saved _ _ _ => some (.adopt call.key)
  | .removing _ _ previous => some (.discard previous)
  | _ => none

theorem isActing_of_task? {call : Call alpha} {task : Task} (h : call.task? = some task) :
    call.phase.isActing = true := by
  unfold task? at h
  cases hphase : call.phase <;> rw [hphase] at h <;> first | rfl | cases h

def Ready (call : Call alpha) (store : Store sigma alpha) (disk : sigma) : Prop :=
  match call.phase with
  | .restoring loaded => loaded = store.found call.keyText disk
  | .saving _ persisted => persisted.key = call.keyText
  | _ => True

theorem ready_of_not_acting {call : Call alpha} (h : call.phase.isActing = false)
    (store : Store sigma alpha) (disk : sigma) : call.Ready store disk := by
  unfold Ready
  split <;> rename_i hphase
  · rw [hphase] at h
    cases h
  · rw [hphase] at h
    cases h
  · exact trivial

section Step

variable [Disk sigma] {setup : CacheSetup sigma alpha} {store : Store sigma alpha} {now : UInt64}
  {call : Call alpha} {scene : Scene sigma alpha}

theorem step_ready (hstore : setup.store = some store)
    (hkept : (forall persisted, ¬ call.Saves persisted) ->
      (forall key, ¬ call.Removes key) -> store.found call.keyText
        (call.step setup now scene).2.disk = store.found call.keyText scene.disk) :
    (call.step setup now scene).1.Ready store (call.step setup now scene).2.disk := by
  have hreaches := step_reaches setup now call scene
  unfold Ready
  rw [keyText_step]
  generalize (call.step setup now scene).1.phase = phase at hreaches ⊢
  cases hreaches with
  | restoring hphase =>
      unfold loaded
      rw [hstore]
      change store.found call.keyText scene.disk =
        store.found call.keyText (call.step setup now scene).2.disk
      symm
      apply hkept
      · rintro persisted ⟨ticket, hother⟩
        rw [hphase] at hother
        cases hother
      · rintro key ⟨ticket, value, hother⟩
        rw [hphase] at hother
        cases hother
  | _ => exact trivial

/-- Only the step that makes a key the current one changes the current keys. -/
theorem step_currentKeys
    (hphase : forall ticket value outcome, call.phase ≠ .saved ticket value outcome) :
    (call.step setup now scene).2.cache.currentKeys = scene.cache.currentKeys := by
  unfold step
  cases hcase : call.phase with
  | opening =>
      dsimp only [openCall]
      split
      · rfl
      · split
        · rw [judge_cache]
        · rfl
  | loading =>
      dsimp only [load]
      split <;> rfl
  | restoring loaded =>
      dsimp only [restore]
      split
      · rfl
      · rfl
      · split
        · rw [judge_cache]
        · rw [judge_cache]
          rfl
  | scanning entry checked touched pending =>
      dsimp only [scan]
      split
      · rfl
      · split <;> rfl
  | hashing entry checked file current pending =>
      dsimp only [compare]
      split <;> rfl
  | missed stale seen =>
      dsimp only [enter]
      split
      · rfl
      · split <;> rfl
  | capturing ticket =>
      dsimp only [capture]
      split <;> rfl
  | reading ticket fingerprint =>
      dsimp only [read]
      split <;> rfl
  | computing ticket primary => rfl
  | saving ticket persisted =>
      dsimp only [save]
      split <;> rfl
  | saved ticket value outcome => exact absurd hcase (hphase ticket value outcome)
  | removing ticket value previous =>
      dsimp only [remove, Scene.removeStored]
      split <;> rfl
  | removed ticket value previous outcome =>
      dsimp only [reportSuperseded, land, Scene.emit]
      rw [emitFailure_cache]
  | waiting ticket =>
      dsimp only [receive]
      split
      · rfl
      · split <;>
        · dsimp only [Scene.emit, release]
          split <;> rfl
  | done result => rfl

theorem step_entries
    (hsaved : forall ticket value outcome, call.phase ≠ .saved ticket value outcome)
    (hrestores : ¬ exists persisted, call.phase = .restoring (.ok (some persisted)) ∧
      scene.cache.entries.find? call.keyText = none) :
    (call.step setup now scene).2.cache.entries = scene.cache.entries := by
  cases step_turn setup now call scene with
  | same hentries _ => exact hentries
  | dropped other hphase _ _ _ =>
      rcases hphase with ⟨ticket, value, outcome, hphase⟩
      exact absurd hphase (hsaved ticket value outcome)
  | restored persisted hphase _ _ =>
      cases hentry : scene.cache.entries.find? call.keyText with
      | none => exact absurd ⟨persisted, hphase, hentry⟩ hrestores
      | some entry => rw [step_restoring_some setup now hphase hentry]
  | refreshed entry checked _ hentries _ => exact hentries

theorem step_task?
    (hsaving : forall ticket persisted, call.phase ≠ .saving ticket persisted)
    (hsaved : forall ticket value outcome, call.phase ≠ .saved ticket value outcome) :
    (call.step setup now scene).1.task? = none := by
  have hreaches := step_reaches setup now call scene
  unfold task?
  generalize (call.step setup now scene).1.phase = phase at hreaches ⊢
  cases hreaches with
  | saved outcome hphase => exact absurd hphase (hsaving _ _)
  | removing hphase _ _ => exact absurd hphase (hsaved _ _ _)
  | _ => rfl

end Step

end Call

namespace Crowd

variable {sigma alpha : Type}

def Has (crowd : Crowd sigma alpha) (task : Task) : Prop :=
  exists caller, caller ∈ crowd.callers ∧ caller.call.task? = some task

def Free (crowd : Crowd sigma alpha) : Prop :=
  forall task, ¬ crowd.Has task

def Only (crowd : Crowd sigma alpha) (task : Task) : Prop :=
  forall other, crowd.Has other <-> other = task

/-- What a move other than an invalidation does to the entries, to the current keys, to what
the store gives, and to the task that is under way. -/
inductive Deed (store : Store sigma alpha) (crowd next : Crowd sigma alpha)
    (move : Move sigma alpha) : Prop where
  | quiet :
      next.scene.cache.entries = crowd.scene.cache.entries ->
      next.scene.cache.currentKeys = crowd.scene.cache.currentKeys ->
      (forall key, store.found key next.scene.disk = store.found key crowd.scene.disk) ->
      (forall key, crowd.Spares move key) -> (forall task, next.Has task <-> crowd.Has task) ->
      Deed store crowd next move
  | restored {call : Call alpha} {persisted : PersistedEntry alpha} :
      crowd.Enters move call persisted.entry (some persisted.tracked) ->
      call.phase = .restoring (.ok (some persisted)) ->
      crowd.scene.cache.entries.find? call.keyText = none ->
      store.found call.keyText crowd.scene.disk = .ok (some persisted) ->
      next.scene.cache.entries =
        crowd.scene.cache.entries.insert call.keyText persisted.entry ->
      next.scene.cache.currentKeys = crowd.scene.cache.currentKeys ->
      (forall key, store.found key next.scene.disk = store.found key crowd.scene.disk) ->
      crowd.Free -> next.Free -> Deed store crowd next move
  | kept {call : Call alpha} {ticket : Ticket alpha} {primary : Option TrackedFile}
      {entry : CacheEntry alpha} {recorded : Option (List TrackedFile)} :
      crowd.Enters move call entry recorded -> call.phase = .computing ticket primary ->
      next.scene.cache.entries = crowd.scene.cache.entries.insert call.keyText entry ->
      next.scene.cache.currentKeys = crowd.scene.cache.currentKeys ->
      (forall key, store.found key next.scene.disk = store.found key crowd.scene.disk) ->
      crowd.Free -> next.Only (.adopt call.key) -> Deed store crowd next move
  | saved (key : CacheKey) :
      next.scene.cache.entries = crowd.scene.cache.entries ->
      next.scene.cache.currentKeys = crowd.scene.cache.currentKeys ->
      (forall other, other ≠ key.text ->
        store.found other next.scene.disk = store.found other crowd.scene.disk) ->
      (forall key, crowd.Spares move key) -> crowd.Only (.adopt key) ->
      next.Only (.adopt key) -> Deed store crowd next move
  | adopted (key : CacheKey) :
      (forall previous, crowd.scene.cache.currentKeys.find? key.path.components = some previous ->
        previous = key.text) ->
      next.scene.cache.entries = crowd.scene.cache.entries ->
      next.scene.cache.currentKeys =
        crowd.scene.cache.currentKeys.insert key.path.components key.text ->
      (forall key, store.found key next.scene.disk = store.found key crowd.scene.disk) ->
      (forall key, crowd.Spares move key) -> crowd.Only (.adopt key) -> next.Free ->
      Deed store crowd next move
  | replaced (key : CacheKey) (previous : String) :
      crowd.scene.cache.currentKeys.find? key.path.components = some previous ->
      previous ≠ key.text ->
      next.scene.cache.entries = crowd.scene.cache.entries.erase previous ->
      next.scene.cache.currentKeys =
        crowd.scene.cache.currentKeys.insert key.path.components key.text ->
      (forall key, store.found key next.scene.disk = store.found key crowd.scene.disk) ->
      (forall key, crowd.Spares move key) -> crowd.Only (.adopt key) ->
      next.Only (.discard previous) -> Deed store crowd next move
  | discarded (previous : String) :
      next.scene.cache.entries = crowd.scene.cache.entries ->
      next.scene.cache.currentKeys = crowd.scene.cache.currentKeys ->
      store.found previous next.scene.disk = .ok none ->
      (forall other, other ≠ previous ->
        store.found other next.scene.disk = store.found other crowd.scene.disk) ->
      (forall key, crowd.Spares move key) -> crowd.Only (.discard previous) -> next.Free ->
      Deed store crowd next move

section Moves

variable {crowd next : Crowd sigma alpha} {index : Nat} {now : UInt64}
  {caller after : Caller alpha}

theorem free_of_not_acting
    (h : forall caller, caller ∈ crowd.callers -> caller.call.phase.isActing = false) :
    crowd.Free := by
  rintro task ⟨caller, hmem, htask⟩
  have hacting := Call.isActing_of_task? htask
  rw [h caller hmem] at hacting
  cases hacting

theorem has_iff
    (hothers : forall place other, place ≠ index -> crowd.callers[place]? = some other ->
      other.call.phase.isActing = false)
    (hcaller : crowd.callers[index]? = some caller) (task : Task) :
    crowd.Has task <-> caller.call.task? = some task := by
  constructor
  · rintro ⟨other, hmem, htask⟩
    obtain ⟨place, hplace⟩ := List.mem_iff_getElem?.mp hmem
    by_cases hindex : place = index
    · rw [hindex, hcaller] at hplace
      cases hplace
      exact htask
    · have hacting := Call.isActing_of_task? htask
      rw [hothers place other hindex hplace] at hacting
      cases hacting
  · intro htask
    exact ⟨caller, List.mem_of_getElem? hcaller, htask⟩

theorem has_set_iff
    (hothers : forall place other, place ≠ index -> crowd.callers[place]? = some other ->
      other.call.phase.isActing = false)
    (hcaller : crowd.callers[index]? = some caller)
    (hcallers : next.callers = crowd.callers.set index after) (task : Task) :
    next.Has task <-> after.call.task? = some task := by
  have hafter : next.callers[index]? = some after := by
    rw [hcallers]
    have hlt := (List.getElem?_eq_some_iff.mp hcaller).choose
    exact List.getElem?_set_self hlt
  refine has_iff ?_ hafter task
  intro place other hne hplace
  rw [hcallers] at hplace
  rcases getElem?_set_cases hplace with ⟨hindex, _⟩ | ⟨_, hold⟩
  · exact absurd hindex hne
  · exact hothers place other hne hold

theorem only_of {task : Task}
    (hhas : forall other, crowd.Has other <-> caller.call.task? = some other)
    (htask : caller.call.task? = some task) : crowd.Only task := by
  intro other
  rw [hhas, htask]
  constructor
  · intro h
    exact (Option.some.inj h).symm
  · intro h
    rw [h]

theorem free_of (hhas : forall other, crowd.Has other <-> caller.call.task? = some other)
    (htask : caller.call.task? = none) : crowd.Free := by
  intro other hother
  rw [hhas, htask] at hother
  cases hother

theorem spares_advance (now : UInt64) (hcaller : crowd.callers[index]? = some caller)
    (hrestores : ¬ exists persisted, caller.call.phase = .restoring (.ok (some persisted)) ∧
      crowd.scene.cache.entries.find? caller.keyText = none) (key : String) :
    crowd.Spares (.advance index now) key := by
  intro call entry recorded henters
  rcases (enters_advance_iff now hcaller).mp henters with ⟨_, hentry, persisted, hphase, _⟩
  exact absurd ⟨persisted, hphase, hentry⟩ hrestores

variable [Disk sigma] {setup : CacheSetup sigma alpha} {store : Store sigma alpha}

theorem deed_saved {ticket : Ticket alpha} {value : alpha} {outcome : Except Error Unit}
    {move : Move sigma alpha} (hphase : caller.call.phase = .saved ticket value outcome)
    (hafter : after.call = (caller.call.step setup now crowd.scene).1)
    (hscene : next.scene = (caller.call.step setup now crowd.scene).2)
    (hbefore : forall task, crowd.Has task <-> caller.call.task? = some task)
    (hhas : forall task, next.Has task <-> after.call.task? = some task)
    (hspares : forall key, crowd.Spares move key)
    (hfound : forall key, store.found key next.scene.disk = store.found key crowd.scene.disk) :
    crowd.Deed store next move := by
  have hstep : caller.call.step setup now crowd.scene =
      caller.call.supersede crowd.scene ticket value outcome := by
    unfold Call.step
    rw [hphase]
  have htask : caller.call.task? = some (.adopt caller.call.key) := by
    unfold Call.task?
    rw [hphase]
  rw [hstep] at hafter hscene
  unfold Call.supersede at hafter hscene
  dsimp only at hafter hscene
  rw [Call.emitFailure_cache] at hafter hscene
  cases hprevious : crowd.scene.cache.currentKeys.find? caller.call.key.path.components with
  | none =>
      rw [hprevious] at hafter hscene
      refine .adopted caller.call.key ?_ ?_ ?_ hfound hspares (only_of hbefore htask)
        (free_of hhas ?_)
      · intro previous hother
        rw [hprevious] at hother
        cases hother
      · rw [hscene]
        rfl
      · rw [hscene]
        rfl
      · rw [hafter]
        rfl
  | some previous =>
      rw [hprevious] at hafter hscene
      dsimp only at hafter hscene
      by_cases hsame : previous = caller.call.keyText
      · rw [if_pos hsame] at hafter hscene
        refine .adopted caller.call.key ?_ ?_ ?_ hfound hspares (only_of hbefore htask)
          (free_of hhas ?_)
        · intro other hother
          rw [hprevious] at hother
          cases hother
          exact hsame
        · rw [hscene]
          rfl
        · rw [hscene]
          rfl
        · rw [hafter]
          rfl
      · rw [if_neg hsame] at hafter hscene
        refine .replaced caller.call.key previous hprevious hsame ?_ ?_ hfound hspares
          (only_of hbefore htask) (only_of hhas ?_)
        · rw [hscene]
          rfl
        · rw [hscene]
          rfl
        · rw [hafter]
          rfl

theorem deed_advance (hstore : setup.store = some store)
    (hmove : crowd.Uninterrupted Phase.isActing (.advance index now))
    (hready : forall caller, caller ∈ crowd.callers ->
      caller.call.Ready store crowd.scene.disk)
    (hheeds : forall key,
      crowd.Heeds store key (crowd.play setup (.advance index now)) (.advance index now)) :
    crowd.Deed store (crowd.play setup (.advance index now)) (.advance index now) := by
  rcases play_advance_cases setup crowd index now with
    ⟨hnone, hscene, hcallers⟩ | ⟨caller, after, hcaller, hafter, hscene, hcallers⟩
  · apply Deed.quiet
    · rw [hscene]
    · rw [hscene]
    · intro key
      rw [hscene]
    · exact spares_advance_none hnone
    · intro task
      unfold Has
      rw [hcallers]
  · have hothers : forall place other, place ≠ index -> crowd.callers[place]? = some other ->
        other.call.phase.isActing = false := fun place other hne hother =>
      hmove.elsewhere hother hne
    have hbefore := has_iff hothers hcaller
    have hhas := has_set_iff hothers hcaller hcallers
    have hmine := hready caller (List.mem_of_getElem? hcaller)
    have hkept := fun key => (hheeds key).kept
    have hremoved := fun key => (hheeds key).removed
    simp only [saves_advance hcaller, removes_advance hcaller] at hkept hremoved
    have hspares := spares_advance now hcaller
    -- outside the steps that write to the store, it gives what it gave before
    have hfound : (forall ticket persisted, caller.call.phase ≠ .saving ticket persisted) ->
        (forall ticket value previous, caller.call.phase ≠ .removing ticket value previous) ->
        forall key, store.found key (crowd.play setup (.advance index now)).scene.disk =
          store.found key crowd.scene.disk := by
      intro hsaving hremoving key
      apply hkept
      · rintro persisted ⟨ticket, hphase⟩
        exact absurd hphase (hsaving ticket persisted)
      · rintro ⟨ticket, value, hphase⟩
        exact hremoving ticket value key hphase
    by_cases hrestores : exists persisted,
        caller.call.phase = .restoring (.ok (some persisted)) ∧
          crowd.scene.cache.entries.find? caller.keyText = none
    · rcases hrestores with ⟨persisted, hphase, hentry⟩
      have hcontents := Call.step_restoring_none setup now hphase hentry
      rw [← hscene] at hcontents
      unfold Call.Ready at hmine
      rw [hphase] at hmine
      refine .restored (.restored hcaller hphase hentry) hphase hentry hmine.symm hcontents.left
        ?_ (hfound (by simp [hphase]) (by simp [hphase])) (free_of hbefore ?_) (free_of hhas ?_)
      · rw [hscene]
        exact Call.step_currentKeys (by simp [hphase])
      · unfold Call.task?
        rw [hphase]
      · rw [hafter]
        exact Call.step_task? (by simp [hphase]) (by simp [hphase])
    · have hspares := hspares hrestores
      cases hphase : caller.call.phase with
      | saving ticket persisted =>
          have hstep : caller.call.step setup now crowd.scene =
              caller.call.save setup crowd.scene ticket persisted := by
            unfold Call.step
            rw [hphase]
          rw [hstep] at hafter hscene
          unfold Call.save at hafter hscene
          rw [hstore] at hafter hscene
          unfold Call.Ready at hmine
          rw [hphase] at hmine
          refine .saved caller.call.key ?_ ?_ ?_ hspares (only_of hbefore ?_)
            (only_of hhas ?_)
          · rw [hscene]
          · rw [hscene]
          · intro other hother
            apply hkept
            · rintro saved ⟨place, hsaving⟩ hkey
              rw [hphase] at hsaving
              cases hsaving
              exact hother (hkey.symm.trans hmine)
            · rintro ⟨place, value, hremoving⟩
              rw [hphase] at hremoving
              cases hremoving
          · unfold Call.task?
            rw [hphase]
          · rw [hafter]
            rfl
      | saved ticket value outcome =>
          exact deed_saved hphase hafter hscene hbefore hhas hspares
            (hfound (by simp [hphase]) (by simp [hphase]))
      | removing ticket value previous =>
          refine .discarded previous ?_ ?_ (hremoved previous ⟨ticket, value, hphase⟩)
            ?_ hspares (only_of hbefore ?_) (free_of hhas ?_)
          · rw [hscene]
            exact Call.step_entries (by simp [hphase]) hrestores
          · rw [hscene]
            exact Call.step_currentKeys (by simp [hphase])
          · intro other hother
            apply hkept
            · rintro saved ⟨place, hsaving⟩
              rw [hphase] at hsaving
              cases hsaving
            · rintro ⟨place, held, hremoving⟩
              rw [hphase] at hremoving
              cases hremoving
              exact hother rfl
          · unfold Call.task?
            rw [hphase]
          · rw [hafter]
            exact Call.step_task? (by simp [hphase]) (by simp [hphase])
      | _ =>
          apply Deed.quiet
          · rw [hscene]
            exact Call.step_entries (by simp [hphase]) hrestores
          · rw [hscene]
            exact Call.step_currentKeys (by simp [hphase])
          · exact hfound (by simp [hphase]) (by simp [hphase])
          · exact hspares
          · intro task
            rw [hhas, hbefore, hafter, Call.step_task? (by simp [hphase]) (by simp [hphase])]
            unfold Call.task?
            rw [hphase]

theorem deed_deliver {outcome : Except Error (Computed alpha)}
    (hmove : crowd.Uninterrupted Phase.isActing (.deliver index now outcome)) :
    crowd.Deed store (crowd.play setup (.deliver index now outcome))
      (.deliver index now outcome) := by
  have hfree := free_of_not_acting hmove
  have hfound : forall key,
      store.found key (crowd.play setup (.deliver index now outcome)).scene.disk =
        store.found key crowd.scene.disk := by
    intro key
    rw [disk_deliver]
  rcases play_deliver_eq setup crowd index now outcome with
    ⟨hnone, hscene, hcallers⟩ | ⟨caller, after, hcaller, hafter, hscene, hcallers⟩
  · refine .quiet ?_ ?_ hfound (spares_deliver_none hnone outcome) ?_
    · rw [hscene]
    · rw [hscene]
    · intro task
      unfold Has
      rw [hcallers]
  · have hothers : forall place other, place ≠ index -> crowd.callers[place]? = some other ->
        other.call.phase.isActing = false := fun place other _ hother =>
      hmove other (List.mem_of_getElem? hother)
    have hhas := has_set_iff hothers hcaller hcallers
    by_cases hkeeps : exists ticket primary computed,
        caller.call.phase = .computing ticket primary ∧ outcome = .ok computed
    · rcases hkeeps with ⟨ticket, primary, computed, hphase, rfl⟩
      have hcache := Call.complete_ok now crowd.scene hphase computed
      rw [← hscene] at hcache
      refine .kept (.stored hcaller hphase) hphase ?_ ?_ hfound hfree (only_of hhas ?_)
      · rw [hcache]
        rfl
      · rw [hcache]
        rfl
      · rw [hafter]
        unfold Call.complete
        rw [hphase]
        rfl
    · have hcomplete : (caller.call.complete now crowd.scene outcome).1.task? =
            caller.call.task? ∧
          (caller.call.complete now crowd.scene outcome).2.cache.entries =
            crowd.scene.cache.entries ∧
          (caller.call.complete now crowd.scene outcome).2.cache.currentKeys =
            crowd.scene.cache.currentKeys := by
        unfold Call.complete
        split
        · rename_i ticket primary hphase
          cases outcome with
          | error cause =>
              unfold Call.task?
              rw [hphase]
              exact ⟨rfl, rfl, rfl⟩
          | ok computed => exact absurd ⟨ticket, primary, computed, hphase, rfl⟩ hkeeps
        · exact ⟨rfl, rfl, rfl⟩
      refine .quiet ?_ ?_ hfound ?_ ?_
      · rw [hscene]
        exact hcomplete.right.left
      · rw [hscene]
        exact hcomplete.right.right
      · intro key call entry recorded henters
        rcases (enters_deliver_iff hcaller).mp henters with
          ⟨_, ticket, primary, computed, hphase, houtcome, _⟩
        exact absurd ⟨ticket, primary, computed, hphase, houtcome⟩ hkeeps
      · intro task
        rw [hhas, has_iff hothers hcaller, hafter, hcomplete.left]

theorem play_deed {move : Move sigma alpha} (hstore : setup.store = some store)
    (hmove : crowd.Uninterrupted Phase.isActing move)
    (hready : forall caller, caller ∈ crowd.callers ->
      caller.call.Ready store crowd.scene.disk)
    (hheeds : forall key, crowd.Heeds store key (crowd.play setup move) move)
    (hinvalidate : forall key, move ≠ .invalidate key) (hclear : move ≠ .clear) :
    crowd.Deed store (crowd.play setup move) move := by
  cases move with
  | start key options =>
      apply Deed.quiet
      · rfl
      · rfl
      · intro other
        rfl
      · intro other call entry recorded henters
        cases henters
      · intro task
        constructor
        · rintro ⟨caller, hmem, htask⟩
          rcases List.mem_append.mp hmem with hold | hnew
          · exact ⟨caller, hold, htask⟩
          · rw [List.mem_singleton.mp hnew] at htask
            cases htask
        · rintro ⟨caller, hmem, htask⟩
          exact ⟨caller, List.mem_append_left _ hmem, htask⟩
  | advance index now => exact deed_advance hstore hmove hready hheeds
  | deliver index now outcome => exact deed_deliver hmove
  | invalidate key => exact absurd rfl (hinvalidate key)
  | clear => exact absurd rfl hclear
  | disturb disk =>
      apply Deed.quiet
      · rfl
      · rfl
      · intro key
        apply (hheeds key).kept
        · rintro persisted ⟨index, now, caller, hother, _⟩
          cases hother
        · rintro (⟨index, now, caller, hother, _⟩ | ⟨other, hother, _⟩)
          · cases hother
          · cases hother
      · intro key call entry recorded henters
        cases henters
      · intro task
        exact Iff.rfl

theorem play_ready {move : Move sigma alpha} (hstore : setup.store = some store)
    (hmove : crowd.Uninterrupted Phase.isActing move)
    (hready : forall caller, caller ∈ crowd.callers ->
      caller.call.Ready store crowd.scene.disk)
    (hheeds : forall key, crowd.Heeds store key (crowd.play setup move) move)
    {caller : Caller alpha} (hmem : caller ∈ (crowd.play setup move).callers) :
    caller.call.Ready store (crowd.play setup move).scene.disk := by
  have hidle : caller.call.phase.isActing = false ->
      caller.call.Ready store (crowd.play setup move).scene.disk :=
    fun hphase => Call.ready_of_not_acting hphase store _
  cases move with
  | start key options =>
      rcases List.mem_append.mp hmem with hold | hnew
      · exact hready caller hold
      · rw [List.mem_singleton.mp hnew]
        exact trivial
  | advance index now =>
      rcases play_advance_cases setup crowd index now with
        ⟨_, hscene, hcallers⟩ | ⟨before, after, hbefore, hafter, hscene, hcallers⟩
      · rw [hcallers] at hmem
        rw [hscene]
        exact hready caller hmem
      · rw [hcallers] at hmem
        obtain ⟨place, hplace⟩ := List.mem_iff_getElem?.mp hmem
        rcases getElem?_set_cases hplace with ⟨_, hsame⟩ | ⟨hne, hold⟩
        · have hkept := (hheeds before.call.keyText).kept
          simp only [saves_advance hbefore, removes_advance hbefore] at hkept
          rw [hsame, hafter, hscene]
          apply Call.step_ready hstore
          intro hsaves hremoves
          rw [← hscene]
          exact hkept (fun persisted hsave => absurd hsave (hsaves persisted)) (hremoves _)
        · exact hidle (hmove.elsewhere hold hne)
  | deliver index now outcome =>
      rcases play_deliver_cases setup crowd index now outcome with
        ⟨_, hcallers⟩ | ⟨before, after, ticket, primary, _, hphase, hafter, _, hcallers⟩
      · rw [hcallers] at hmem
        exact hidle (hmove caller hmem)
      · rw [hcallers] at hmem
        rcases List.mem_or_eq_of_mem_set hmem with hold | hnew
        · exact hidle (hmove caller hold)
        · rw [hnew, hafter]
          unfold Call.complete
          rw [hphase]
          cases outcome with
          | error cause => exact trivial
          | ok computed => exact rfl
  | invalidate key => exact hidle (hmove caller hmem)
  | clear => exact hidle (hmove caller hmem)
  | disturb disk =>
      have hkept : forall key, store.found key disk = store.found key crowd.scene.disk := by
        intro key
        apply (hheeds key).kept
        · rintro persisted ⟨index, now, other, hother, _⟩
          cases hother
        · rintro (⟨index, now, other, hother, _⟩ | ⟨other, hother, _⟩)
          · cases hother
          · cases hother
      have hcall := hready caller hmem
      unfold Call.Ready at hcall ⊢
      split at hcall
      · exact hcall.trans (hkept _).symm
      · exact hcall
      · exact trivial

end Moves

end Crowd
end LessonPress

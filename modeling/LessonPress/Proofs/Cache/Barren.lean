import LessonPress.Proofs.Cache.Course
import LessonPress.Proofs.Cache.SingleFlight
import LessonPress.Proofs.Cache.Storeless

/-!
# Stores that give nothing

## A run on such a store beside the run without a store

The same moves are made twice: on a store whose loads fail or find nothing, and without a
store.  Saving and removing may come out in any way.  Nothing but the events that report
failures tells the two runs apart.
-/

namespace LessonPress
namespace Crowd

variable {sigma alpha : Type}

def LooksAt (crowd : Crowd sigma alpha) (move : Move sigma alpha) (path : FilePath) : Prop :=
  exists (index : Nat) (now : UInt64) (caller : Caller alpha), move = .advance index now ∧
    crowd.callers[index]? = some caller ∧ caller.call.looksAt? = some path

def Loads (crowd : Crowd sigma alpha) (move : Move sigma alpha) (key : String) : Prop :=
  exists (index : Nat) (now : UInt64) (caller : Caller alpha), move = .advance index now ∧
    crowd.callers[index]? = some caller ∧ caller.call.phase = .loading ∧ caller.keyText = key

def Barren (crowd : Crowd sigma alpha) : Prop :=
  forall caller, caller ∈ crowd.callers ->
    forall persisted, caller.call.phase ≠ .restoring (.ok (some persisted))

/-- The second crowd has no store, and is otherwise the same. -/
structure Echoes (past : List (String × CacheEvent)) (crowd bare : Crowd sigma alpha) :
    Prop where
  scene : crowd.scene.Echoes past bare.scene
  calls : bare.callers.map Caller.call =
    crowd.callers.map fun caller => caller.call.storeless

namespace Echoes

variable {past : List (String × CacheEvent)} {crowd bare next bareNext : Crowd sigma alpha}

theorem getElem?_eq (h : crowd.Echoes past bare) (index : Nat) :
    bare.callers[index]?.map Caller.call =
      crowd.callers[index]?.map fun caller => caller.call.storeless := by
  rw [← List.getElem?_map, h.calls, List.getElem?_map]

theorem bare_caller (h : crowd.Echoes past bare) {index : Nat} {caller : Caller alpha}
    (hcaller : crowd.callers[index]? = some caller) :
    exists other, bare.callers[index]? = some other ∧ other.call = caller.call.storeless := by
  have hcall := h.getElem?_eq index
  rw [hcaller, Option.map_some] at hcall
  exact Option.map_eq_some_iff.mp hcall

theorem bare_none (h : crowd.Echoes past bare) {index : Nat}
    (hcaller : crowd.callers[index]? = none) : bare.callers[index]? = none := by
  have hcall := h.getElem?_eq index
  rw [hcaller, Option.map_none] at hcall
  exact Option.map_eq_none_iff.mp hcall

theorem set {index : Nat} {after other : Caller alpha} (h : crowd.Echoes past bare)
    (hscene : next.scene.Echoes past bareNext.scene)
    (hcall : other.call = after.call.storeless)
    (hcallers : next.callers = crowd.callers.set index after)
    (hbare : bareNext.callers = bare.callers.set index other) : next.Echoes past bareNext where
  scene := hscene
  calls := by
    rw [hbare, hcallers, List.map_set, List.map_set, h.calls, hcall]

section Moves

variable [Disk sigma] {setup : CacheSetup sigma alpha}

theorem advance (h : crowd.Echoes past bare) (hbarren : crowd.Barren) {index : Nat}
    {now : UInt64} (hview : forall path, crowd.LooksAt (.advance index now) path ->
      Call.SameView crowd.scene bare.scene path) :
    (crowd.play setup (.advance index now)).Echoes past
      (bare.play setup.withoutStore (.advance index now)) := by
  rcases play_advance_cases setup crowd index now with
    ⟨hnone, hscene, hcallers⟩ | ⟨caller, after, hcaller, hafter, hscene, hcallers⟩
  · rcases play_advance_cases setup.withoutStore bare index now with
      ⟨_, hbareScene, hbareCallers⟩ | ⟨other, _, hother, _⟩
    · constructor
      · rw [hscene, hbareScene]
        exact h.scene
      · rw [hcallers, hbareCallers]
        exact h.calls
    · rw [h.bare_none hnone] at hother
      cases hother
  · rcases h.bare_caller hcaller with ⟨other, hother, hcall⟩
    rcases play_advance_cases setup.withoutStore bare index now with
      ⟨hbareNone, _⟩ | ⟨same, bareAfter, hsame, hbareAfter, hbareScene, hbareCallers⟩
    · rw [hother] at hbareNone
      cases hbareNone
    · rw [hother] at hsame
      cases hsame
      have hstep := Call.step_echoes setup now h.scene
        (hbarren caller (List.mem_of_getElem? hcaller))
        (fun path hpath => hview path ⟨index, now, caller, rfl, hcaller, hpath⟩)
      rw [← hcall] at hstep
      refine h.set ?_ ?_ hcallers hbareCallers
      · rw [hscene, hbareScene]
        exact hstep.scene
      · rw [hafter, hbareAfter]
        exact hstep.call

theorem deliver (h : crowd.Echoes past bare) (index : Nat) (now : UInt64)
    (outcome : Except Error (Computed alpha)) :
    (crowd.play setup (.deliver index now outcome)).Echoes past
      (bare.play setup.withoutStore (.deliver index now outcome)) := by
  rcases play_deliver_eq setup crowd index now outcome with
    ⟨hnone, hscene, hcallers⟩ | ⟨caller, after, hcaller, hafter, hscene, hcallers⟩
  · rcases play_deliver_eq setup.withoutStore bare index now outcome with
      ⟨_, hbareScene, hbareCallers⟩ | ⟨other, _, hother, _⟩
    · constructor
      · rw [hscene, hbareScene]
        exact h.scene
      · rw [hcallers, hbareCallers]
        exact h.calls
    · rw [h.bare_none hnone] at hother
      cases hother
  · rcases h.bare_caller hcaller with ⟨other, hother, hcall⟩
    rcases play_deliver_eq setup.withoutStore bare index now outcome with
      ⟨hbareNone, _⟩ | ⟨same, bareAfter, hsame, hbareAfter, hbareScene, hbareCallers⟩
    · rw [hother] at hbareNone
      cases hbareNone
    · rw [hother] at hsame
      cases hsame
      have hcomplete : Call.Echoes past _ (caller.call.storeless.complete now bare.scene outcome) :=
        Call.complete_echoes h.scene outcome
      rw [← hcall] at hcomplete
      refine h.set ?_ ?_ hcallers hbareCallers
      · rw [hscene, hbareScene]
        exact hcomplete.scene
      · rw [hafter, hbareAfter]
        exact hcomplete.call

theorem play (h : crowd.Echoes past bare) (hbarren : crowd.Barren) {move : Move sigma alpha}
    (hview : forall path, crowd.LooksAt move path ->
      Call.SameView crowd.scene bare.scene path) :
    (crowd.play setup move).Echoes past (bare.play setup.withoutStore move) := by
  cases move with
  | start key options =>
      constructor
      · exact h.scene
      · change (bare.callers ++ [_]).map Caller.call = (crowd.callers ++ [_]).map _
        rw [List.map_append, List.map_append, h.calls]
        rfl
  | advance index now => exact h.advance hbarren hview
  | deliver index now outcome => exact h.deliver index now outcome
  | invalidate key => exact ⟨Call.invalidate_echoes setup h.scene key, h.calls⟩
  | clear =>
      refine ⟨?_, h.calls⟩
      change Scene.Echoes past { crowd.scene with cache := crowd.scene.cache.clear }
        { bare.scene with cache := bare.scene.cache.clear }
      rw [h.scene.cache]
      exact h.scene.change _ _ _
  | disturb disk => exact ⟨⟨h.scene.cache, h.scene.events⟩, h.calls⟩

end Moves
end Echoes

section Run

variable [Disk sigma] {setup : CacheSetup sigma alpha}

theorem Barren.play {crowd : Crowd sigma alpha} (h : crowd.Barren) {move : Move sigma alpha}
    (hload : forall key, crowd.Loads move key -> forall store, setup.store = some store ->
      forall persisted, (store.load key crowd.scene.disk).1 ≠ .ok (some persisted)) :
    (crowd.play setup move).Barren := by
  intro caller hmem persisted hphase
  cases came_play hmem with
  | stood hold => exact h caller hold persisted hphase
  | begun key options hnew =>
      rw [hnew] at hphase
      cases hphase
  | stepped index now before hmove hbefore hstep =>
      have hreaches := Call.step_reaches setup now before.call crowd.scene
      rw [hstep] at hphase
      rw [hphase] at hreaches
      generalize hloaded : Phase.restoring (Except.ok (some persisted)) = phase at hreaches
      cases hreaches with
      | restoring hloading =>
          have hfound := hload before.keyText ⟨index, now, before, hmove, hbefore, hloading, rfl⟩
          injection hloaded with hloaded
          unfold Call.loaded at hloaded
          cases hstore : setup.store with
          | none =>
              rw [hstore] at hloaded
              cases hloaded
          | some store =>
              rw [hstore] at hloaded
              exact hfound store hstore persisted hloaded.symm
      | _ => cases hloaded
  | completed index now outcome before ticket primary _ _ hcomputing hcomplete =>
      rw [hcomplete] at hphase
      unfold Call.complete at hphase
      rw [hcomputing] at hphase
      cases outcome <;> cases hphase

variable (setup) (moves : Nat -> Move sigma alpha) (count : Nat)

def GivesNothing (crowd : Crowd sigma alpha) : Prop :=
  forall moment, moment < count -> forall key,
    (crowd.after setup moves moment).Loads (moves moment) key ->
    forall store, setup.store = some store -> forall persisted,
      (store.load key (crowd.after setup moves moment).scene.disk).1 ≠ .ok (some persisted)

/-- Whenever a call looks at a file, it would see the same in the run without a store. -/
def SeesAlike (crowd : Crowd sigma alpha) : Prop :=
  forall moment, moment < count -> forall path,
    (crowd.after setup moves moment).LooksAt (moves moment) path ->
    Call.SameView (crowd.after setup moves moment).scene
      (crowd.after setup.withoutStore moves moment).scene path

variable {setup moves count} {start : Scene sigma alpha}

theorem echoes_after (hgives : (opened start).GivesNothing setup moves count)
    (hsees : (opened start).SeesAlike setup moves count) {moment : Nat} (hle : moment ≤ count) :
    ((opened start).after setup moves moment).Barren ∧
      ((opened start).after setup moves moment).Echoes start.events
        ((opened start).after setup.withoutStore moves moment) := by
  induction moment with
  | zero =>
      constructor
      · intro caller hmem
        cases hmem
      · exact ⟨.refl start, rfl⟩
  | succ moment ih =>
      rcases ih (Nat.le_of_succ_le hle) with ⟨hbarren, hechoes⟩
      exact ⟨hbarren.play (hgives moment hle), hechoes.play hbarren (hsees moment hle)⟩

/-- On a store that gives nothing, the results, the computations, the cache and the events
are those of a cache without a store, apart from the reports of failures. -/
theorem storeless_after (hgives : (opened start).GivesNothing setup moves count)
    (hsees : (opened start).SeesAlike setup moves count) {moment : Nat} (hle : moment ≤ count) :
    ((opened start).after setup.withoutStore moves moment).scene.cache =
        ((opened start).after setup moves moment).scene.cache ∧
      (((opened start).after setup.withoutStore moves moment).callers.map fun caller =>
          caller.call.result?) =
        (((opened start).after setup moves moment).callers.map fun caller =>
          caller.call.result?) ∧
      (((opened start).after setup.withoutStore moves moment).callers.map fun caller =>
          caller.call.computing?) =
        (((opened start).after setup moves moment).callers.map fun caller =>
          caller.call.computing?) ∧
      exists events,
        ((opened start).after setup moves moment).scene.events = start.events ++ events ∧
          ((opened start).after setup.withoutStore moves moment).scene.events =
            start.events ++ CacheEvent.withoutFailures events := by
  have hechoes := (echoes_after hgives hsees hle).right
  have hcalls : forall {beta : Type} (view : Call alpha -> beta),
      (forall call, view call.storeless = view call) ->
      (((opened start).after setup.withoutStore moves moment).callers.map fun caller =>
          view caller.call) =
        ((opened start).after setup moves moment).callers.map fun caller => view caller.call := by
    intro beta view hview
    have hmap := congrArg (List.map view) hechoes.calls
    rw [List.map_map, List.map_map] at hmap
    refine hmap.trans (List.map_congr_left ?_)
    intro caller _
    exact hview caller.call
  exact ⟨hechoes.scene.cache, hcalls Call.result? Call.result?_storeless,
    hcalls Call.computing? Call.computing?_storeless, hechoes.scene.events⟩

end Run

/-!
# Stores that leave the files alone
-/

section Untouched

variable [Disk sigma] {setup : CacheSetup sigma alpha}

theorem disk_play_withoutStore (crowd : Crowd sigma alpha) {move : Move sigma alpha}
    (hmove : forall disk, move ≠ .disturb disk) :
    (crowd.play setup.withoutStore move).scene.disk = crowd.scene.disk := by
  cases move with
  | start key options => rfl
  | advance index now =>
      cases hcaller : crowd.callers[index]? with
      | none => exact disk_advance_of_none crowd now hcaller
      | some caller =>
          rw [disk_advance crowd now hcaller, Call.step_disk_eq]
          rfl
  | deliver index now outcome => exact disk_deliver crowd index now outcome
  | invalidate key => rfl
  | clear => rfl
  | disturb disk => exact absurd rfl (hmove disk)

theorem seesAlike_of_untouched {store : Store sigma alpha} (hstore : setup.store = some store)
    (hload : forall key disk, Disk.files (store.load key disk).2 = Disk.files disk)
    (hsave : forall persisted disk, Disk.files (store.save persisted disk).2 = Disk.files disk)
    (hremove : forall key disk, Disk.files (store.remove key disk).2 = Disk.files disk)
    (moves : Nat -> Move sigma alpha) (count : Nat) (start : Scene sigma alpha) :
    (opened start).SeesAlike setup moves count := by
  have hfiles : forall moment,
      Disk.files ((opened start).after setup.withoutStore moves moment).scene.disk =
        Disk.files ((opened start).after setup moves moment).scene.disk := by
    intro moment
    induction moment with
    | zero => rfl
    | succ moment ih =>
        by_cases hmove : exists disk, moves moment = .disturb disk
        · rcases hmove with ⟨disk, hmove⟩
          change Disk.files (play _ _ (moves moment)).scene.disk =
            Disk.files (play _ _ (moves moment)).scene.disk
          rw [hmove]
          rfl
        · have hquiet : forall disk, moves moment ≠ .disturb disk :=
            fun disk hdisk => hmove ⟨disk, hdisk⟩
          calc
            Disk.files ((opened start).after setup.withoutStore moves (moment + 1)).scene.disk
            _ = Disk.files ((opened start).after setup.withoutStore moves moment).scene.disk :=
                congrArg Disk.files (disk_play_withoutStore _ hquiet)
            _ = Disk.files ((opened start).after setup moves moment).scene.disk := ih
            _ = Disk.files ((opened start).after setup moves (moment + 1)).scene.disk :=
                (play_view Disk.files hstore hload hsave hremove _ hquiet).symm
  intro moment _ path _
  unfold Call.SameView
  rw [hfiles moment]

end Untouched

/-!
# A store where every operation fails
-/

def brokenStore : Store FileSystem String where
  load key fs := (.error (.task key), fs)
  save persisted fs := (.error (.task persisted.key), fs)
  remove key fs := (.error (.task key), fs)

def replacedCall : List (Move FileSystem String) :=
  let plain := CacheKey.file ⟨"a"⟩
  let strict : CacheKey := ⟨⟨"a"⟩, some ⟨"h"⟩⟩
  let options : CallOptions := ⟨none, .zero, false⟩
  let first := Move.advance 0 0
  let second := Move.advance 1 0
  [.start plain options, first, first, first, first, first, .deliver 0 0 (.ok ⟨"v", []⟩), first,
    first, first, .start strict options, second, second, second, second, second,
    .deliver 1 0 (.ok ⟨"w", []⟩), second, second, second, second, second, .invalidate strict]

def brokenSetup : CacheSetup FileSystem String :=
  ⟨false, some brokenStore⟩

def brokenRun : Crowd FileSystem String × Crowd FileSystem String :=
  ((opened emptyScene).after brokenSetup (script replacedCall) 23,
    (opened emptyScene).after brokenSetup.withoutStore (script replacedCall) 23)

theorem storeless_after_broken :
    (opened emptyScene).GivesNothing brokenSetup (script replacedCall) 23 ∧
      (opened emptyScene).SeesAlike brokenSetup (script replacedCall) 23 ∧
      brokenRun.2.scene.cache = brokenRun.1.scene.cache ∧
      (brokenRun.1.callers.map fun caller => caller.call.result?) =
        [some (.ok "v"), some (.ok "w")] ∧
      (exists events, brokenRun.1.scene.events = emptyScene.events ++ events ∧
        brokenRun.2.scene.events = emptyScene.events ++ CacheEvent.withoutFailures events) ∧
      brokenRun.1.scene.events.length = 13 ∧ brokenRun.2.scene.events.length = 7 := by
  have hgives : (opened emptyScene).GivesNothing brokenSetup (script replacedCall) 23 := by
    rintro moment _ key _ store ⟨⟩ persisted hloaded
    cases hloaded
  have hsees : (opened emptyScene).SeesAlike brokenSetup (script replacedCall) 23 :=
    seesAlike_of_untouched rfl (fun _ _ => rfl) (fun _ _ => rfl) (fun _ _ => rfl) _ _ _
  have hafter := storeless_after hgives hsees (Nat.le_refl 23)
  exact ⟨hgives, hsees, hafter.left, rfl, hafter.right.right.right, rfl, rfl⟩

end Crowd
end LessonPress

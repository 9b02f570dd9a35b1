import LessonPress.Cache.Run
import LessonPress.Proofs.Cache.Contents

/-!
# Runs

## What the steps of a run keep

What every step of a call keeps, a run up to the next pause keeps as well.  Events are only
added, and without a store the disk stays as it is.
-/

namespace LessonPress
namespace Call

variable {sigma alpha : Type} [Disk sigma] {setup : CacheSetup sigma alpha} {now : UInt64}
  {call : Call alpha} {scene : Scene sigma alpha}

omit [Disk sigma] in
theorem emitFailure_events (scene : Scene sigma alpha) (key : String)
    (outcome : Except Error Unit) : scene.events <+: (scene.emitFailure key outcome).events := by
  cases outcome with
  | ok _ => exact List.prefix_rfl
  | error cause => exact List.prefix_append _ _

omit [Disk sigma] in
theorem judge_events (entry : CacheEntry alpha) :
    scene.events <+: (call.judge setup now scene entry).2.events := by
  unfold judge
  split
  · exact List.prefix_append _ _
  · split
    · exact List.prefix_append _ _
    · split
      · exact List.prefix_append _ _
      · exact List.prefix_rfl

theorem step_events (setup : CacheSetup sigma alpha) (now : UInt64) (call : Call alpha)
    (scene : Scene sigma alpha) : scene.events <+: (call.step setup now scene).2.events := by
  unfold step
  cases hphase : call.phase with
  | opening =>
      dsimp only [openCall]
      split
      · exact List.prefix_append _ _
      · split
        · exact judge_events _
        · exact List.prefix_rfl
  | loading =>
      dsimp only [load]
      split <;> exact List.prefix_rfl
  | restoring loaded =>
      dsimp only [restore]
      cases loaded with
      | error cause => exact (List.prefix_append _ _).trans (List.prefix_append _ _)
      | ok found =>
          cases found with
          | none => exact List.prefix_append _ _
          | some persisted =>
              dsimp only
              split
              · exact judge_events _
              · refine List.IsPrefix.trans ?_ (judge_events _)
                exact List.prefix_append _ _
  | scanning entry checked touched pending =>
      dsimp only [scan]
      cases pending with
      | nil => exact List.prefix_append _ _
      | cons file rest =>
          dsimp only
          split
          · exact List.prefix_rfl
          · exact List.prefix_rfl
          · exact List.prefix_append _ _
  | hashing entry checked file current pending =>
      dsimp only [compare]
      split
      · exact List.prefix_rfl
      · exact List.prefix_append _ _
  | missed stale seen =>
      dsimp only [enter]
      split
      · exact List.prefix_append _ _
      · split
        · exact List.prefix_append _ _
        · exact List.prefix_rfl
  | capturing ticket =>
      dsimp only [capture]
      split <;> exact List.prefix_rfl
  | reading ticket fingerprint =>
      dsimp only [read]
      split <;> exact List.prefix_rfl
  | computing ticket primary => exact List.prefix_rfl
  | saving ticket persisted =>
      dsimp only [save]
      split <;> exact List.prefix_rfl
  | saved ticket value outcome =>
      have hreported := emitFailure_events scene call.keyText outcome
      dsimp only [supersede]
      split
      · exact hreported
      · split <;> exact hreported
  | removing ticket value previous =>
      dsimp only [remove, Scene.removeStored]
      split <;> exact List.prefix_rfl
  | removed ticket value previous outcome =>
      exact (emitFailure_events scene previous outcome).trans (List.prefix_append _ _)
  | waiting ticket =>
      dsimp only [receive]
      split
      · exact List.prefix_rfl
      · split
        · exact List.prefix_append _ _
        · exact List.prefix_rfl
  | done result => exact List.prefix_rfl

theorem run_keeps (holds : Scene sigma alpha -> Prop)
    (hstep : forall (call : Call alpha) (scene : Scene sigma alpha), holds scene ->
      holds (call.step setup now scene).2)
    (h : holds scene) : holds (call.run setup now scene).2 := by
  fun_induction run setup now call scene with
  | case1 call scene hpaused => exact h
  | case2 call scene hpaused ih => exact ih (hstep call scene h)

theorem run_events (setup : CacheSetup sigma alpha) (now : UInt64) (call : Call alpha)
    (scene : Scene sigma alpha) : scene.events <+: (call.run setup now scene).2.events := by
  apply run_keeps fun next => scene.events <+: next.events
  · intro call next h
    exact h.trans (step_events setup now call next)
  · exact List.prefix_rfl

theorem run_disk (hstore : setup.store = none) (now : UInt64) (call : Call alpha)
    (scene : Scene sigma alpha) : (call.run setup now scene).2.disk = scene.disk := by
  apply run_keeps fun next => next.disk = scene.disk
  · intro call next h
    rw [step_disk_eq, hstore]
    exact h
  · rfl

end Call

namespace Scene

variable {sigma alpha : Type} [Disk sigma] {setup : CacheSetup sigma alpha}

theorem disk_getOrCompute (hstore : setup.store = none) (now : UInt64) (key : CacheKey)
    (options : CallOptions) (compute : sigma -> Except Error (Computed alpha) × sigma)
    (scene : Scene sigma alpha) :
    (scene.getOrCompute setup now key options compute).2.disk = scene.disk ∨
      (scene.getOrCompute setup now key options compute).2.disk = (compute scene.disk).2 := by
  have hresume : forall (call : Call alpha) (next : Scene sigma alpha),
      (call.resume setup now next).2.disk = next.disk := by
    intro call next
    have hstep : (call.step setup now next).2.disk = next.disk := by
      rw [Call.step_disk_eq, hstore]
    exact (Call.run_disk hstore now _ _).trans hstep
  have hlooked := Call.run_disk hstore now (Call.new key options) scene
  unfold getOrCompute
  generalize (Call.new key options).run setup now scene = looked at hlooked
  rcases looked with ⟨call, looked⟩
  have haloft := (hresume call looked).trans hlooked
  dsimp only
  generalize call.resume setup now looked = ended at haloft
  rcases ended with ⟨call, aloft⟩
  dsimp only at haloft ⊢
  split
  · refine Or.inr ((Call.run_disk hstore now _ _).trans ?_)
    rw [Call.complete_disk, haloft]
  · exact Or.inl haloft

end Scene
end LessonPress

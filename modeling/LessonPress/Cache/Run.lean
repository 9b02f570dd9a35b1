import LessonPress.Cache.Call

/-!
# Runs

## Whole calls that no other call interrupts

A run takes the steps of a call up to the next point where something outside has
to happen.  Every step leads to a later phase, or to fewer files that are still
to be checked, so a run ends.
-/

namespace LessonPress

namespace Phase

variable {alpha : Type}

def rank : Phase alpha -> Nat
  | opening => 13
  | loading => 12
  | restoring _ => 11
  | scanning _ _ _ _ => 10
  | hashing _ _ _ _ _ => 10
  | missed _ _ => 9
  | capturing _ => 8
  | reading _ _ => 7
  | computing _ _ => 6
  | saving _ _ => 5
  | saved _ _ _ => 4
  | removing _ _ _ => 3
  | removed _ _ _ _ => 2
  | waiting _ => 1
  | done _ => 0

def backlog : Phase alpha -> Nat
  | scanning _ _ _ pending => 2 * pending.length
  | hashing _ _ _ _ pending => 2 * pending.length + 1
  | _ => 0

def Nearer (phase next : Phase alpha) : Prop :=
  next.rank < phase.rank ∨ next.rank = phase.rank ∧ next.backlog < phase.backlog

end Phase

namespace Call

variable {sigma alpha : Type}

theorem judge_rank_le (setup : CacheSetup sigma alpha) (now : UInt64) (call : Call alpha)
    (scene : Scene sigma alpha) (entry : CacheEntry alpha) :
    (call.judge setup now scene entry).1.phase.rank ≤ 10 := by
  unfold judge
  split
  · exact Nat.zero_le 10
  · split
    · exact Nat.le_succ 9
    · split
      · exact Nat.le_succ 9
      · exact Nat.le_refl 10

theorem openCall_nearer (setup : CacheSetup sigma alpha) (now : UInt64) (call : Call alpha)
    (scene : Scene sigma alpha) :
    (call.openCall setup now scene).1.phase.rank < 13 := by
  unfold openCall
  split
  · exact Nat.lt_of_lt_of_le (Nat.lt_succ_self 9) (by decide)
  · split
    · exact Nat.lt_of_le_of_lt (judge_rank_le ..) (by decide)
    · exact Nat.lt_succ_self 12

theorem restore_nearer (setup : CacheSetup sigma alpha) (now : UInt64) (call : Call alpha)
    (scene : Scene sigma alpha) (loaded : Except Error (Option (PersistedEntry alpha))) :
    (call.restore setup now scene loaded).1.phase.rank < 11 := by
  unfold restore
  split
  · exact Nat.lt_of_lt_of_le (Nat.lt_succ_self 9) (by decide)
  · exact Nat.lt_of_lt_of_le (Nat.lt_succ_self 9) (by decide)
  · split
    · exact Nat.lt_succ_of_le (judge_rank_le ..)
    · exact Nat.lt_succ_of_le (judge_rank_le ..)

theorem enter_nearer (now : UInt64) (call : Call alpha) (scene : Scene sigma alpha)
    (stale : Option alpha) (seen : Option UInt64) :
    (call.enter now scene stale seen).1.phase.rank < 9 := by
  unfold enter
  split
  · show 1 < 9
    decide
  · dsimp only
    split
    · show 1 < 9
      decide
    · exact Nat.lt_succ_self 8

theorem step_nearer [Disk sigma] (setup : CacheSetup sigma alpha) (now : UInt64)
    (call : Call alpha) (scene : Scene sigma alpha) (h : call.isBlocked scene = false) :
    call.phase.Nearer (call.step setup now scene).1.phase := by
  unfold isBlocked at h
  unfold step
  cases hphase : call.phase with
  | opening => exact Or.inl (openCall_nearer ..)
  | loading =>
      refine Or.inl ?_
      dsimp only [load]
      split <;> exact Nat.lt_succ_self 11
  | restoring loaded => exact Or.inl (restore_nearer ..)
  | scanning entry checked touched pending =>
      dsimp only [scan]
      cases pending with
      | nil => exact Or.inl (Nat.zero_lt_succ 9)
      | cons file pending =>
          dsimp only
          split
          · refine Or.inr ⟨rfl, ?_⟩
            show 2 * pending.length < 2 * (pending.length + 1)
            omega
          · refine Or.inr ⟨rfl, ?_⟩
            show 2 * pending.length + 1 < 2 * (pending.length + 1)
            omega
          · exact Or.inl (Nat.lt_succ_self 9)
  | hashing entry checked file current pending =>
      dsimp only [compare]
      split
      · refine Or.inr ⟨rfl, ?_⟩
        exact Nat.lt_succ_self _
      · exact Or.inl (Nat.lt_succ_self 9)
  | missed stale seen => exact Or.inl (enter_nearer ..)
  | capturing ticket =>
      refine Or.inl ?_
      dsimp only [capture]
      split
      · exact Nat.lt_succ_self 7
      · show 6 < 8
        decide
  | reading ticket fingerprint =>
      refine Or.inl ?_
      dsimp only [read]
      split <;> exact Nat.lt_succ_self 6
  | computing ticket primary =>
      rw [hphase] at h
      cases h
  | saving ticket persisted =>
      refine Or.inl ?_
      dsimp only [save]
      split <;> exact Nat.lt_succ_self 4
  | saved ticket value outcome =>
      refine Or.inl ?_
      dsimp only [supersede]
      split
      · show 1 < 4
        decide
      · split
        · show 1 < 4
          decide
        · exact Nat.lt_succ_self 3
  | removing ticket value previous => exact Or.inl (Nat.lt_succ_self 2)
  | removed ticket value previous outcome => exact Or.inl (Nat.lt_succ_self 1)
  | waiting ticket =>
      rw [hphase] at h
      refine Or.inl ?_
      dsimp only [receive]
      cases hresult : scene.cache.results.find? ticket.flight with
      | none =>
          simp [Table.contains, hresult] at h
      | some result =>
          dsimp only
          split <;> exact Nat.zero_lt_succ 0
  | done result =>
      rw [hphase] at h
      cases h

/-!
# Runs up to the next pause
-/

/-- Whether a run pauses: where the call is blocked, and after a miss, before the
flight is taken. -/
def isPaused (call : Call alpha) (scene : Scene sigma alpha) : Bool :=
  match call.phase with
  | .missed _ _ => true
  | _ => call.isBlocked scene

theorem isBlocked_of_not_isPaused {call : Call alpha} {scene : Scene sigma alpha}
    (h : call.isPaused scene = false) : call.isBlocked scene = false := by
  unfold isPaused at h
  split at h
  · cases h
  · exact h

def run [Disk sigma] (setup : CacheSetup sigma alpha) (now : UInt64) (call : Call alpha)
    (scene : Scene sigma alpha) : Call alpha × Scene sigma alpha :=
  if call.isPaused scene then
    (call, scene)
  else
    run setup now (call.step setup now scene).1 (call.step setup now scene).2
termination_by (call.phase.rank, call.phase.backlog)
decreasing_by
  rename_i hpaused
  have hnearer :=
    step_nearer setup now call scene (isBlocked_of_not_isPaused (by simpa using hpaused))
  cases hnearer with
  | inl hrank => exact Prod.Lex.left _ _ hrank
  | inr hbacklog =>
      rw [Prod.lex_def]
      exact Or.inr hbacklog

def resume [Disk sigma] (setup : CacheSetup sigma alpha) (now : UInt64) (call : Call alpha)
    (scene : Scene sigma alpha) : Call alpha × Scene sigma alpha :=
  let (call, scene) := call.step setup now scene
  call.run setup now scene

end Call

namespace Scene

variable {sigma alpha : Type}

/-- What a call answers that was left waiting for a flight without an end. -/
def abandoned : Error :=
  .task "no result"

def getOrCompute [Disk sigma] (setup : CacheSetup sigma alpha) (now : UInt64) (key : CacheKey)
    (options : CallOptions) (compute : sigma -> Except Error (Computed alpha) × sigma)
    (scene : Scene sigma alpha) : Except Error alpha × Scene sigma alpha :=
  let (call, scene) := (Call.new key options).run setup now scene
  let (call, scene) := call.resume setup now scene
  match call.phase with
  | .computing _ _ =>
      let (outcome, disk) := compute scene.disk
      let (call, scene) := call.complete now { scene with disk := disk } outcome
      let (call, scene) := call.run setup now scene
      (call.result?.getD (.error abandoned), scene)
  | _ => (call.result?.getD (.error abandoned), scene)

end Scene
end LessonPress

import LessonPress.Proofs.Cache.Coherence
import LessonPress.Proofs.Cache.Tidy

/-!
# The past of a run

## Which values were kept, restored and dropped, and when

What the past is at a moment is read off the run up to it.  A move adds to it what it does
itself: it keeps a value, or restores an entry, or invalidates a key, or nothing of this.
-/

namespace LessonPress

namespace Crowd

variable {sigma alpha : Type} [Disk sigma]

section Run

variable (setup : CacheSetup sigma alpha) (moves : Nat -> Move sigma alpha)
  (store : Store sigma alpha) (crowd : Crowd sigma alpha)

def KeepsAt (moment : Nat) (call : Call alpha) : Prop :=
  call.Computes ∧ exists entry recorded, crowd.EntersAt setup moves moment call entry recorded

def KeptBefore (moment : Nat) (key : String) : Prop :=
  exists source call, source < moment ∧ crowd.KeepsAt setup moves source call ∧
    call.keyText = key

def LatestAt (moment : Nat) (file : List FilePath.Component) (key : String) : Prop :=
  exists source call, source < moment ∧ crowd.KeepsAt setup moves source call ∧
    call.components = file ∧ call.keyText = key ∧
    forall later other, source < later -> later < moment ->
      crowd.KeepsAt setup moves later other -> other.components ≠ file

def DroppedSince (source moment : Nat) (key : String) : Prop :=
  exists later other, source < later ∧ later < moment ∧ moves later = .invalidate other ∧
    other.text = key

def GoneAt (moment : Nat) (key : String) : Prop :=
  (crowd.after setup moves moment).scene.cache.entries.find? key = none ∧
    crowd.foundAt setup moves store key moment = .ok none

def pastAt (moment : Nat) : Past alpha where
  kept := crowd.KeptBefore setup moves moment
  latest := crowd.LatestAt setup moves moment
  entered := fun call => exists source entry recorded,
    crowd.LastEntered setup moves moment source call entry recorded
  dropped := fun call => exists source entry recorded,
    crowd.LastEntered setup moves moment source call entry recorded ∧
      DroppedSince moves source moment call.keyText

end Run

section Growing

variable {setup : CacheSetup sigma alpha} {moves : Nat -> Move sigma alpha}
  {crowd : Crowd sigma alpha} {moment : Nat}

theorem keptBefore_succ (key : String) :
    crowd.KeptBefore setup moves (moment + 1) key <->
      crowd.KeptBefore setup moves moment key ∨
        exists call, crowd.KeepsAt setup moves moment call ∧ call.keyText = key := by
  constructor
  · rintro ⟨source, call, hlt, hkeeps, hkey⟩
    rcases Nat.lt_succ_iff_lt_or_eq.mp hlt with hbefore | hnow
    · exact Or.inl ⟨source, call, hbefore, hkeeps, hkey⟩
    · rw [hnow] at hkeeps
      exact Or.inr ⟨call, hkeeps, hkey⟩
  · rintro (⟨source, call, hlt, hkeeps, hkey⟩ | ⟨call, hkeeps, hkey⟩)
    · exact ⟨source, call, Nat.lt_succ_of_lt hlt, hkeeps, hkey⟩
    · exact ⟨moment, call, Nat.lt_succ_self moment, hkeeps, hkey⟩

theorem latestAt_succ (file : List FilePath.Component) (key : String) :
    crowd.LatestAt setup moves (moment + 1) file key <->
      (crowd.LatestAt setup moves moment file key ∧
          forall other, crowd.KeepsAt setup moves moment other -> other.components ≠ file) ∨
        exists call, crowd.KeepsAt setup moves moment call ∧ call.components = file ∧
          call.keyText = key := by
  constructor
  · rintro ⟨source, call, hlt, hkeeps, hfile, hkey, hlatest⟩
    rcases Nat.lt_succ_iff_lt_or_eq.mp hlt with hbefore | hnow
    · refine Or.inl ⟨⟨source, call, hbefore, hkeeps, hfile, hkey, ?_⟩, ?_⟩
      · intro later other hsource hlater
        exact hlatest later other hsource (Nat.lt_succ_of_lt hlater)
      · exact fun other => hlatest moment other hbefore (Nat.lt_succ_self moment)
    · rw [hnow] at hkeeps
      exact Or.inr ⟨call, hkeeps, hfile, hkey⟩
  · rintro (⟨⟨source, call, hlt, hkeeps, hfile, hkey, hlatest⟩, hother⟩ |
      ⟨call, hkeeps, hfile, hkey⟩)
    · refine ⟨source, call, Nat.lt_succ_of_lt hlt, hkeeps, hfile, hkey, ?_⟩
      intro later other hsource hlater
      rcases Nat.lt_succ_iff_lt_or_eq.mp hlater with hbefore | hnow
      · exact hlatest later other hsource hbefore
      · rw [hnow]
        exact hother other
    · refine ⟨moment, call, Nat.lt_succ_self moment, hkeeps, hfile, hkey, ?_⟩
      intro later other hsource hlater
      exact absurd hsource (Nat.not_lt_of_le (Nat.le_of_lt_succ hlater))

theorem keptBefore_of_not (hkeeps : forall call, ¬ crowd.KeepsAt setup moves moment call)
    (key : String) :
    crowd.KeptBefore setup moves (moment + 1) key <-> crowd.KeptBefore setup moves moment key := by
  refine (keptBefore_succ key).trans (or_iff_left ?_)
  rintro ⟨call, hnow, _⟩
  exact hkeeps call hnow

theorem latestAt_of_not (hkeeps : forall call, ¬ crowd.KeepsAt setup moves moment call)
    (file : List FilePath.Component) (key : String) :
    crowd.LatestAt setup moves (moment + 1) file key <->
      crowd.LatestAt setup moves moment file key := by
  refine (latestAt_succ file key).trans ((or_iff_left ?_).trans (and_iff_left ?_))
  · rintro ⟨call, hnow, _⟩
    exact hkeeps call hnow
  · exact fun call hnow => absurd hnow (hkeeps call)

theorem lastEntered_succ {source : Nat} {call : Call alpha} {entry : CacheEntry alpha}
    {recorded : Option (List TrackedFile)} :
    crowd.LastEntered setup moves (moment + 1) source call entry recorded <->
      (crowd.LastEntered setup moves moment source call entry recorded ∧
          (crowd.after setup moves moment).Spares (moves moment) call.keyText) ∨
        source = moment ∧ crowd.EntersAt setup moves moment call entry recorded := by
  constructor
  · intro h
    rcases Nat.lt_succ_iff_lt_or_eq.mp h.earlier with hbefore | hnow
    · refine Or.inl ⟨⟨hbefore, h.enters, ?_⟩, h.spared moment hbefore (Nat.lt_succ_self moment)⟩
      intro later hsource hlater
      exact h.spared later hsource (Nat.lt_succ_of_lt hlater)
    · have henters := h.enters
      rw [hnow] at henters
      exact Or.inr ⟨hnow, henters⟩
  · rintro (⟨h, hspares⟩ | ⟨rfl, henters⟩)
    · exact h.wait hspares
    · refine ⟨Nat.lt_succ_self source, henters, ?_⟩
      intro later hsource hlater
      exact absurd hsource (Nat.not_lt_of_le (Nat.le_of_lt_succ hlater))

omit [Disk sigma] in
theorem droppedSince_succ {source : Nat} (hlt : source < moment) (key : String) :
    DroppedSince moves source (moment + 1) key <->
      DroppedSince moves source moment key ∨
        exists other : CacheKey, moves moment = .invalidate other ∧ other.text = key := by
  constructor
  · rintro ⟨later, other, hsource, hlater, hmove, hkey⟩
    rcases Nat.lt_succ_iff_lt_or_eq.mp hlater with hbefore | hnow
    · exact Or.inl ⟨later, other, hsource, hbefore, hmove, hkey⟩
    · rw [hnow] at hmove
      exact Or.inr ⟨other, hmove, hkey⟩
  · rintro (⟨later, other, hsource, hlater, hmove, hkey⟩ | ⟨other, hmove, hkey⟩)
    · exact ⟨later, other, hsource, Nat.lt_succ_of_lt hlater, hmove, hkey⟩
    · exact ⟨moment, other, hlt, Nat.lt_succ_self moment, hmove, hkey⟩

omit [Disk sigma] in
theorem not_droppedSince_now (key : String) : ¬ DroppedSince moves moment (moment + 1) key := by
  rintro ⟨later, other, hsource, hlater, _⟩
  exact absurd hsource (Nat.not_lt_of_le (Nat.le_of_lt_succ hlater))

theorem entered_succ (call : Call alpha) :
    (crowd.pastAt setup moves (moment + 1)).entered call <->
      ((crowd.pastAt setup moves moment).entered call ∧
          (crowd.after setup moves moment).Spares (moves moment) call.keyText) ∨
        exists entry recorded, crowd.EntersAt setup moves moment call entry recorded := by
  constructor
  · rintro ⟨source, entry, recorded, hlast⟩
    rcases lastEntered_succ.mp hlast with ⟨hlast, hspares⟩ | ⟨_, henters⟩
    · exact Or.inl ⟨⟨source, entry, recorded, hlast⟩, hspares⟩
    · exact Or.inr ⟨entry, recorded, henters⟩
  · rintro (⟨⟨source, entry, recorded, hlast⟩, hspares⟩ | ⟨entry, recorded, henters⟩)
    · exact ⟨source, entry, recorded, lastEntered_succ.mpr (Or.inl ⟨hlast, hspares⟩)⟩
    · exact ⟨moment, entry, recorded, lastEntered_succ.mpr (Or.inr ⟨rfl, henters⟩)⟩

theorem dropped_succ (call : Call alpha) :
    (crowd.pastAt setup moves (moment + 1)).dropped call <->
      (crowd.after setup moves moment).Spares (moves moment) call.keyText ∧
        ((crowd.pastAt setup moves moment).dropped call ∨
          (crowd.pastAt setup moves moment).entered call ∧
            exists other : CacheKey, moves moment = .invalidate other ∧
              other.text = call.keyText) := by
  constructor
  · rintro ⟨source, entry, recorded, hlast, hdropped⟩
    rcases lastEntered_succ.mp hlast with ⟨hlast, hspares⟩ | ⟨rfl, _⟩
    · refine ⟨hspares, ?_⟩
      rcases (droppedSince_succ hlast.earlier _).mp hdropped with hbefore | hnow
      · exact Or.inl ⟨source, entry, recorded, hlast, hbefore⟩
      · exact Or.inr ⟨⟨source, entry, recorded, hlast⟩, hnow⟩
    · exact absurd hdropped (not_droppedSince_now _)
  · rintro ⟨hspares, ⟨source, entry, recorded, hlast, hdropped⟩ |
      ⟨⟨source, entry, recorded, hlast⟩, hnow⟩⟩
    · exact ⟨source, entry, recorded, hlast.wait hspares,
        (droppedSince_succ hlast.earlier _).mpr (Or.inl hdropped)⟩
    · exact ⟨source, entry, recorded, hlast.wait hspares,
        (droppedSince_succ hlast.earlier _).mpr (Or.inr hnow)⟩

section Moves

variable (hmove : forall other, moves moment ≠ .invalidate other)

include hmove

theorem pastAt_quiet
    (hspares : forall key, (crowd.after setup moves moment).Spares (moves moment) key) :
    crowd.pastAt setup moves (moment + 1) = crowd.pastAt setup moves moment := by
  have hkeeps : forall call, ¬ crowd.KeepsAt setup moves moment call := by
    rintro call ⟨_, entry, recorded, henters⟩
    exact hspares call.keyText call entry recorded henters rfl
  ext
  case kept key => exact keptBefore_of_not hkeeps key
  case latest file key => exact latestAt_of_not hkeeps file key
  case entered call =>
    refine (entered_succ call).trans ((or_iff_left ?_).trans (and_iff_left (hspares _)))
    rintro ⟨entry, recorded, henters⟩
    exact hspares call.keyText call entry recorded henters rfl
  case dropped call =>
    refine (dropped_succ call).trans ((and_iff_right (hspares _)).trans (or_iff_left ?_))
    rintro ⟨_, other, hother, _⟩
    exact hmove other hother

section Enters

variable {call : Call alpha} {entry : CacheEntry alpha} {recorded : Option (List TrackedFile)}
  (henters : crowd.EntersAt setup moves moment call entry recorded)

include henters

omit hmove in
theorem entered_enter (other : Call alpha) :
    (crowd.pastAt setup moves (moment + 1)).entered other <->
      ((crowd.pastAt setup moves moment).enter call).entered other := by
  refine (entered_succ other).trans ?_
  constructor
  · rintro (⟨hentered, hspares⟩ | ⟨_, _, hnow⟩)
    · exact Or.inr ⟨hentered, fun heq => hspares call entry recorded henters heq.symm⟩
    · exact Or.inl (henters.unique hnow)
  · rintro (rfl | ⟨hentered, hne⟩)
    · exact Or.inr ⟨entry, recorded, henters⟩
    · refine Or.inl ⟨hentered, ?_⟩
      intro next _ _ hnow heq
      rw [henters.unique hnow] at heq
      exact hne heq.symm

theorem dropped_enter (other : Call alpha) :
    (crowd.pastAt setup moves (moment + 1)).dropped other <->
      ((crowd.pastAt setup moves moment).enter call).dropped other := by
  refine (dropped_succ other).trans ?_
  constructor
  · rintro ⟨hspares, hdropped | ⟨_, next, hnext, _⟩⟩
    · exact ⟨hdropped, fun heq => hspares call entry recorded henters heq.symm⟩
    · exact absurd hnext (hmove next)
  · rintro ⟨hdropped, hne⟩
    refine ⟨?_, Or.inl hdropped⟩
    intro next _ _ hnow heq
    rw [henters.unique hnow] at heq
    exact hne heq.symm

theorem pastAt_enter {persisted : PersistedEntry alpha} (hrestores : call.Restores persisted) :
    crowd.pastAt setup moves (moment + 1) = (crowd.pastAt setup moves moment).enter call := by
  have hkeeps : forall other, ¬ crowd.KeepsAt setup moves moment other := by
    rintro other ⟨hcomputes, entry, recorded, hother⟩
    rw [henters.unique hother] at hcomputes
    exact hrestores.not_computes hcomputes
  ext
  case kept key => exact keptBefore_of_not hkeeps key
  case latest file key => exact latestAt_of_not hkeeps file key
  case entered other => exact entered_enter henters other
  case dropped other => exact dropped_enter hmove henters other

theorem pastAt_keep (hcomputes : call.Computes) :
    crowd.pastAt setup moves (moment + 1) = (crowd.pastAt setup moves moment).keep call := by
  have hkeeps : forall other, crowd.KeepsAt setup moves moment other <-> other = call := by
    intro other
    constructor
    · rintro ⟨_, entry, recorded, hother⟩
      exact henters.unique hother
    · rintro rfl
      exact ⟨hcomputes, entry, recorded, henters⟩
  ext
  case kept key =>
    refine (keptBefore_succ key).trans (or_congr_right ?_)
    simp only [hkeeps, exists_eq_left]
  case latest file key =>
    refine (latestAt_succ file key).trans ?_
    simp only [hkeeps, forall_eq, exists_eq_left]
    rfl
  case entered other => exact entered_enter henters other
  case dropped other => exact dropped_enter hmove henters other

end Enters
end Moves

theorem pastAt_drop {key : CacheKey} (hmove : moves moment = .invalidate key) :
    crowd.pastAt setup moves (moment + 1) =
      (crowd.pastAt setup moves moment).drop key.text := by
  have henters : forall call entry recorded,
      ¬ crowd.EntersAt setup moves moment call entry recorded := by
    intro call entry recorded henters
    unfold EntersAt at henters
    rw [hmove] at henters
    cases henters
  have hspares : forall other, (crowd.after setup moves moment).Spares (moves moment) other :=
    fun other call entry recorded hnow => absurd hnow (henters call entry recorded)
  have hkeeps : forall call, ¬ crowd.KeepsAt setup moves moment call := by
    rintro call ⟨_, entry, recorded, hnow⟩
    exact henters call entry recorded hnow
  ext
  case kept other => exact keptBefore_of_not hkeeps other
  case latest file other => exact latestAt_of_not hkeeps file other
  case entered call =>
    refine (entered_succ call).trans ((or_iff_left ?_).trans (and_iff_left (hspares _)))
    rintro ⟨entry, recorded, hnow⟩
    exact henters call entry recorded hnow
  case dropped call =>
    refine (dropped_succ call).trans ((and_iff_right (hspares _)).trans ?_)
    rw [hmove]
    constructor
    · rintro (hdropped | ⟨hentered, other, hother, hkey⟩)
      · exact Or.inl hdropped
      · cases hother
        exact Or.inr ⟨hentered, hkey.symm⟩
    · rintro (hdropped | ⟨hentered, hkey⟩)
      · exact Or.inl hdropped
      · exact Or.inr ⟨hentered, key, rfl, hkey.symm⟩

end Growing

end Crowd
end LessonPress

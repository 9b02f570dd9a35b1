import LessonPress.Proofs.Cache.Contents

/-!
# The course of a call

## Which phase a step leads to, and what it takes along

For every phase that a step can lead to there is one way, or two, to come there.  What a
phase holds was at hand in the phase before, or was found by the step.
-/

namespace LessonPress

namespace Call

variable {sigma alpha : Type}

def loaded (setup : CacheSetup sigma alpha) (call : Call alpha) (disk : sigma) :
    Except Error (Option (PersistedEntry alpha)) :=
  match setup.store with
  | none => .ok none
  | some store => (store.load call.keyText disk).1

inductive Reaches [Disk sigma] (setup : CacheSetup sigma alpha) (call : Call alpha)
    (scene : Scene sigma alpha) (next : Cache alpha) : Phase alpha -> Prop where
  | loading : call.phase = .opening -> Reaches setup call scene next .loading
  | restoring : call.phase = .loading ->
      Reaches setup call scene next (.restoring (call.loaded setup scene.disk))
  | listed {entry : CacheEntry alpha} {files : List TrackedFile} :
      call.InMemory next entry files ->
      Reaches setup call scene next (.scanning entry [] false files)
  | passed {entry : CacheEntry alpha} {checked pending : List TrackedFile} {touched : Bool}
      {file : TrackedFile} :
      call.phase = .scanning entry checked touched (file :: pending) ->
      Reaches setup call scene next (.scanning entry (checked ++ [file]) touched pending)
  | moved {entry : CacheEntry alpha} {checked pending : List TrackedFile} {touched : Bool}
      {file : TrackedFile} {current : Fingerprint} :
      call.phase = .scanning entry checked touched (file :: pending) ->
      file.glance (Fingerprint.read (Disk.files scene.disk) file.path) = .moved current ->
      Reaches setup call scene next (.hashing entry checked file current pending)
  | refreshed {entry : CacheEntry alpha} {checked pending : List TrackedFile}
      {file updated : TrackedFile} {current : Fingerprint} :
      call.phase = .hashing entry checked file current pending ->
      file.refresh current ((Disk.files scene.disk).read file.path) = some updated ->
      Reaches setup call scene next (.scanning entry (checked ++ [updated]) true pending)
  | missed (stale : Option alpha) (seen : Option UInt64) :
      Reaches setup call scene next (.missed stale seen)
  | capturing (ticket : Ticket alpha) : Reaches setup call scene next (.capturing ticket)
  | reading {ticket : Ticket alpha} {fingerprint : Fingerprint} :
      call.phase = .capturing ticket ->
      Fingerprint.read (Disk.files scene.disk) call.key.path = .ok fingerprint ->
      Reaches setup call scene next (.reading ticket fingerprint)
  | unseen {ticket : Ticket alpha} {cause : IoError} :
      call.phase = .capturing ticket ->
      Fingerprint.read (Disk.files scene.disk) call.key.path = .error cause ->
      Reaches setup call scene next (.computing ticket none)
  | unread {ticket : Ticket alpha} {fingerprint : Fingerprint} {cause : IoError} :
      call.phase = .reading ticket fingerprint ->
      (Disk.files scene.disk).read call.key.path = .error cause ->
      Reaches setup call scene next (.computing ticket none)
  | captured {ticket : Ticket alpha} {fingerprint : Fingerprint} {bytes : ByteArray} :
      call.phase = .reading ticket fingerprint ->
      (Disk.files scene.disk).read call.key.path = .ok bytes ->
      Reaches setup call scene next (.computing ticket (some (.ofBytes fingerprint bytes)))
  | saved {ticket : Ticket alpha} {persisted : PersistedEntry alpha}
      (outcome : Except Error Unit) :
      call.phase = .saving ticket persisted ->
      Reaches setup call scene next (.saved ticket persisted.entry.value outcome)
  | removing {ticket : Ticket alpha} {value : alpha} {outcome : Except Error Unit}
      {previous : String} :
      call.phase = .saved ticket value outcome ->
      scene.cache.currentKeys.find? call.key.path.components = some previous ->
      previous ≠ call.keyText ->
      Reaches setup call scene next (.removing ticket value previous)
  | removed {ticket : Ticket alpha} {value : alpha} {previous : String}
      (outcome : Except Error Unit) :
      call.phase = .removing ticket value previous ->
      Reaches setup call scene next (.removed ticket value previous outcome)
  | waiting (ticket : Ticket alpha) : Reaches setup call scene next (.waiting ticket)
  | done (result : Except Error alpha) : Reaches setup call scene next (.done result)
  | computing {ticket : Ticket alpha} {primary : Option TrackedFile} :
      call.phase = .computing ticket primary ->
      Reaches setup call scene next (.computing ticket primary)

variable [Disk sigma] {setup : CacheSetup sigma alpha} {now : UInt64} {call : Call alpha}
  {scene : Scene sigma alpha}

theorem judge_reaches {before : Scene sigma alpha} {entry : CacheEntry alpha}
    (hentry : scene.cache.entries.find? call.keyText = some entry) :
    Reaches setup call before (call.judge setup now scene entry).2.cache
      (call.judge setup now scene entry).1.phase := by
  rw [judge_cache]
  unfold judge
  split
  · exact .done _
  · split
    · exact .missed _ _
    · split
      · exact .missed _ _
      · rename_i files hfiles
        exact .listed ⟨hentry, hfiles⟩

theorem step_reaches (setup : CacheSetup sigma alpha) (now : UInt64) (call : Call alpha)
    (scene : Scene sigma alpha) :
    Reaches setup call scene (call.step setup now scene).2.cache
      (call.step setup now scene).1.phase := by
  unfold step
  cases hphase : call.phase with
  | opening =>
      dsimp only [openCall]
      split
      · exact .missed _ _
      · split
        · rename_i entry hentry
          exact judge_reaches hentry
        · exact .loading hphase
  | loading =>
      have hrestoring : Reaches setup call scene scene.cache
          (.restoring (call.loaded setup scene.disk)) := .restoring hphase
      unfold loaded at hrestoring
      dsimp only [load]
      cases hstore : setup.store with
      | none =>
          rw [hstore] at hrestoring
          exact hrestoring
      | some store =>
          rw [hstore] at hrestoring
          exact hrestoring
  | restoring loaded =>
      dsimp only [restore]
      cases loaded with
      | error cause => exact .missed _ _
      | ok found =>
          cases found with
          | none => exact .missed _ _
          | some persisted =>
              dsimp only
              split
              · rename_i entry hentry
                exact judge_reaches hentry
              · exact judge_reaches (Table.find?_insert_self ..)
  | scanning entry checked touched pending =>
      dsimp only [scan]
      cases pending with
      | nil => exact .done _
      | cons file pending =>
          dsimp only
          split
          · exact .passed hphase
          · rename_i current hglance
            exact .moved hphase hglance
          · exact .missed _ _
  | hashing entry checked file current pending =>
      dsimp only [compare]
      split
      · rename_i updated hupdated
        exact .refreshed hphase hupdated
      · exact .missed _ _
  | missed stale seen =>
      dsimp only [enter]
      split
      · exact .waiting _
      · split
        · exact .waiting _
        · exact .capturing _
  | capturing ticket =>
      dsimp only [capture]
      split
      · rename_i fingerprint hread
        exact .reading hphase hread
      · rename_i cause hread
        exact .unseen hphase hread
  | reading ticket fingerprint =>
      dsimp only [read]
      split
      · rename_i bytes hread
        exact .captured hphase hread
      · rename_i cause hread
        exact .unread hphase hread
  | computing ticket primary =>
      dsimp only
      rw [hphase]
      exact .computing hphase
  | saving ticket persisted =>
      dsimp only [save]
      split
      · exact .saved _ hphase
      · exact .saved _ hphase
  | saved ticket value outcome =>
      dsimp only [supersede]
      rw [emitFailure_cache]
      split
      · exact .waiting _
      · rename_i previous hprevious
        split
        · exact .waiting _
        · rename_i hother
          exact .removing hphase hprevious hother
  | removing ticket value previous => exact .removed _ hphase
  | removed ticket value previous outcome => exact .waiting _
  | waiting ticket =>
      dsimp only [receive]
      split
      · dsimp only
        rw [hphase]
        exact .waiting _
      · split
        · exact .done _
        · exact .done _
  | done result =>
      dsimp only
      rw [hphase]
      exact .done _

end Call

/-!
# Parts of a call that nothing interrupts
-/

namespace Crowd

variable {sigma alpha : Type}

/-- While a call is in this part of its course, the move is a step of this call, the
beginning of another one, or a change of the disk. -/
def Uninterrupted (part : Phase alpha -> Bool) (crowd : Crowd sigma alpha) :
    Move sigma alpha -> Prop
  | .start _ _ => True
  | .disturb _ => True
  | .advance index _ => forall place (h : place < crowd.callers.length),
      part crowd.callers[place].call.phase = true -> place = index
  | _ => forall caller, caller ∈ crowd.callers -> part caller.call.phase = false

instance (part : Phase alpha -> Bool) (crowd : Crowd sigma alpha) :
    (move : Move sigma alpha) -> Decidable (crowd.Uninterrupted part move)
  | .start _ _ => inferInstanceAs (Decidable True)
  | .disturb _ => inferInstanceAs (Decidable True)
  | .advance index _ => inferInstanceAs (Decidable (forall place (h : place < crowd.callers.length),
      part crowd.callers[place].call.phase = true -> place = index))
  | .deliver _ _ _ => inferInstanceAs (Decidable (forall caller, caller ∈ crowd.callers ->
      part caller.call.phase = false))
  | .invalidate _ => inferInstanceAs (Decidable (forall caller, caller ∈ crowd.callers ->
      part caller.call.phase = false))
  | .clear => inferInstanceAs (Decidable (forall caller, caller ∈ crowd.callers ->
      part caller.call.phase = false))

theorem Uninterrupted.mono {part longer : Phase alpha -> Bool} {crowd : Crowd sigma alpha}
    {move : Move sigma alpha} (h : crowd.Uninterrupted longer move)
    (hpart : forall phase, part phase = true -> longer phase = true) :
    crowd.Uninterrupted part move := by
  have hidle : (forall caller, caller ∈ crowd.callers -> longer caller.call.phase = false) ->
      forall caller, caller ∈ crowd.callers -> part caller.call.phase = false := by
    intro hlonger caller hmem
    apply Bool.eq_false_iff.mpr
    intro hphase
    have hfalse := hlonger caller hmem
    rw [hpart _ hphase] at hfalse
    cases hfalse
  cases move with
  | start key options => exact trivial
  | disturb disk => exact trivial
  | advance index now => exact fun place hlt hphase => h place hlt (hpart _ hphase)
  | deliver index now outcome => exact hidle h
  | invalidate key => exact hidle h
  | clear => exact hidle h

theorem Uninterrupted.elsewhere {part : Phase alpha -> Bool} {crowd : Crowd sigma alpha}
    {index place : Nat} {now : UInt64} {caller : Caller alpha}
    (h : crowd.Uninterrupted part (.advance index now))
    (hcaller : crowd.callers[place]? = some caller) (hne : place ≠ index) :
    part caller.call.phase = false := by
  obtain ⟨hlt, rfl⟩ := List.getElem?_eq_some_iff.mp hcaller
  apply Bool.eq_false_iff.mpr
  intro hpart
  exact hne (h place hlt hpart)

end Crowd
end LessonPress

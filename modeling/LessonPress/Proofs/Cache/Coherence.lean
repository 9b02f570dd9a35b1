import LessonPress.Proofs.Cache.Arrivals
import LessonPress.Proofs.Cache.SingleFlight
import LessonPress.Proofs.Cache.Vouching

/-!
# Entries and their lists of tracked files

## What the two tables of a cache hold of one key belongs together

Entries and lists are kept in two tables, and five operations change them.  As long as no
check is interrupted, the list of an entry is the one that was recorded when the entry
came into memory, where a check has put newer fingerprints into it at most.
-/

namespace LessonPress
namespace Crowd

variable {sigma alpha : Type}

section Run

variable [Disk sigma] (setup : CacheSetup sigma alpha) (moves : Nat -> Move sigma alpha)
  (crowd : Crowd sigma alpha)

def EntersAt (moment : Nat) (call : Call alpha) (entry : CacheEntry alpha)
    (recorded : Option (List TrackedFile)) : Prop :=
  (crowd.after setup moves moment).Enters (moves moment) call entry recorded

/-- The last time up to a moment that an entry was put under the key of the call. -/
structure LastEntered (moment source : Nat) (call : Call alpha) (entry : CacheEntry alpha)
    (recorded : Option (List TrackedFile)) : Prop where
  earlier : source < moment
  enters : crowd.EntersAt setup moves source call entry recorded
  spared : forall later, source < later -> later < moment ->
    (crowd.after setup moves later).Spares (moves later) call.keyText

def CaptureFailsAt (moment : Nat) (key : CacheKey) (ticket : Ticket alpha) : Prop :=
  exists (index : Nat) (now : UInt64) (caller : Caller alpha) (cause : IoError),
    moves moment = .advance index now ∧
      (crowd.after setup moves moment).callers[index]? = some caller ∧ caller.call.key = key ∧
      (caller.call.phase = .capturing ticket ∧
          Fingerprint.read (Disk.files (crowd.after setup moves moment).scene.disk) key.path =
            .error cause ∨
        (exists fingerprint, caller.call.phase = .reading ticket fingerprint) ∧
          (Disk.files (crowd.after setup moves moment).scene.disk).read key.path = .error cause)

/-- What the call has captured is the key's own file, and if it has captured nothing then
because that has failed. -/
def Captured (moment : Nat) (call : Call alpha) : Prop :=
  match call.phase with
  | .reading _ fingerprint => fingerprint.path = call.key.path
  | .computing _ (some own) => own.path = call.key.path
  | .computing ticket none =>
      exists failed, failed < moment ∧ crowd.CaptureFailsAt setup moves failed call.key ticket
  | _ => True

structure CoherentAt (moment : Nat) : Prop where
  listed : forall key files,
    (crowd.after setup moves moment).scene.cache.records.find? key = some files ->
    exists entry, (crowd.after setup moves moment).scene.cache.entries.find? key = some entry
  entered : forall key entry,
    (crowd.after setup moves moment).scene.cache.entries.find? key = some entry ->
    exists source call recorded, call.keyText = key ∧
      crowd.LastEntered setup moves moment source call entry recorded ∧
      ListsRenew ((crowd.after setup moves moment).scene.cache.records.find? key) recorded
  headed : forall source call entry files ticket primary, source < moment ->
    crowd.EntersAt setup moves source call entry (some files) ->
    call.phase = .computing ticket primary ->
    (exists own rest, files = own :: rest ∧ own.path = call.key.path) ∧
      files.Pairwise fun file other => file.path.same other.path = false
  unlisted : forall key entry,
    (crowd.after setup moves moment).scene.cache.entries.find? key = some entry ->
    (crowd.after setup moves moment).scene.cache.records.find? key = none ->
    exists source call ticket, call.keyText = key ∧
      crowd.LastEntered setup moves moment source call entry none ∧
      call.phase = .computing ticket none ∧
      exists failed, failed < source ∧ crowd.CaptureFailsAt setup moves failed call.key ticket

end Run

section Invariants

variable [Disk sigma] {setup : CacheSetup sigma alpha} {moves : Nat -> Move sigma alpha}
  {crowd : Crowd sigma alpha} {moment : Nat}

theorem Captured.wait {call : Call alpha} (h : crowd.Captured setup moves moment call) :
    crowd.Captured setup moves (moment + 1) call := by
  unfold Captured at h ⊢
  cases hphase : call.phase with
  | computing ticket primary =>
      rw [hphase] at h
      cases primary with
      | some own => exact h
      | none =>
          rcases h with ⟨failed, hlt, hfails⟩
          exact ⟨failed, Nat.lt_succ_of_lt hlt, hfails⟩
  | reading ticket fingerprint =>
      rw [hphase] at h
      exact h
  | _ => exact trivial

theorem Captured.advance {index : Nat} {now : UInt64} {caller : Caller alpha}
    (h : crowd.Captured setup moves moment caller.call)
    (hmove : moves moment = .advance index now)
    (hcaller : (crowd.after setup moves moment).callers[index]? = some caller) :
    crowd.Captured setup moves (moment + 1)
      (caller.call.step setup now (crowd.after setup moves moment).scene).1 := by
  have hkey :=
    (Call.sameCall_step setup now caller.call (crowd.after setup moves moment).scene).left
  have hreaches :=
    Call.step_reaches setup now caller.call (crowd.after setup moves moment).scene
  have hwait := h.wait
  unfold Captured at h hwait ⊢
  rw [hkey]
  generalize (caller.call.step setup now (crowd.after setup moves moment).scene).1.phase = phase
    at hreaches ⊢
  cases hreaches with
  | reading _ hread => exact Fingerprint.path_of_read hread
  | unseen hphase hread =>
      exact ⟨moment, Nat.lt_succ_self moment, index, now, caller, _, hmove, hcaller, rfl,
        Or.inl ⟨hphase, hread⟩⟩
  | unread hphase hread =>
      exact ⟨moment, Nat.lt_succ_self moment, index, now, caller, _, hmove, hcaller, rfl,
        Or.inr ⟨⟨_, hphase⟩, hread⟩⟩
  | captured hphase _ =>
      rw [hphase] at h
      exact h
  | computing hphase =>
      rw [hphase] at hwait
      exact hwait
  | _ => exact trivial

theorem captured_after (hcrowd : crowd.callers = []) (moment : Nat) {caller : Caller alpha}
    (hmem : caller ∈ (crowd.after setup moves moment).callers) :
    crowd.Captured setup moves moment caller.call := by
  induction moment generalizing caller with
  | zero =>
      change caller ∈ crowd.callers at hmem
      rw [hcrowd] at hmem
      cases hmem
  | succ moment ih =>
      change caller ∈ ((crowd.after setup moves moment).play setup (moves moment)).callers at hmem
      cases came_play hmem with
      | stood hold => exact (ih hold).wait
      | begun key options hnew =>
          rw [hnew]
          exact trivial
      | stepped index now before hmove hbefore hstep =>
          rw [hstep]
          exact (ih (List.mem_of_getElem? hbefore)).advance hmove hbefore
      | completed index now outcome before ticket primary _ _ hphase hcomplete =>
          rw [hcomplete]
          unfold Captured Call.complete
          rw [hphase]
          cases outcome <;> exact trivial

theorem LastEntered.wait {source : Nat} {call : Call alpha} {entry : CacheEntry alpha}
    {recorded : Option (List TrackedFile)}
    (h : crowd.LastEntered setup moves moment source call entry recorded)
    (hspares : (crowd.after setup moves moment).Spares (moves moment) call.keyText) :
    crowd.LastEntered setup moves (moment + 1) source call entry recorded where
  earlier := Nat.lt_succ_of_lt h.earlier
  enters := h.enters
  spared := by
    intro later hsource hlater
    rcases Nat.lt_succ_iff_lt_or_eq.mp hlater with hbefore | hnow
    · exact h.spared later hsource hbefore
    · rw [hnow]
      exact hspares

variable {scene : Scene sigma alpha} {count : Nat}

theorem checks_after
    (hmoves : forall moment, moment < count ->
      ((opened scene).after setup moves moment).Uninterrupted Phase.isChecking (moves moment))
    (hle : moment ≤ count) :
    ((opened scene).after setup moves moment).Checks := by
  induction moment with
  | zero =>
      intro caller hmem
      cases hmem
  | succ moment ih => exact (ih (Nat.le_of_succ_le hle)).play (hmoves moment hle)

/-- What is in memory under a key was put there by a move, and nothing has taken its
place since. -/
theorem entered_after (hcache : scene.cache = .empty)
    (hmoves : forall moment, moment < count ->
      ((opened scene).after setup moves moment).Uninterrupted Phase.isChecking (moves moment))
    (hle : moment ≤ count) (key : String) :
    (((opened scene).after setup moves moment).scene.cache.entries.find? key = none ->
        ((opened scene).after setup moves moment).scene.cache.records.find? key = none) ∧
      forall entry,
        ((opened scene).after setup moves moment).scene.cache.entries.find? key = some entry ->
        exists source call recorded, call.keyText = key ∧
          (opened scene).LastEntered setup moves moment source call entry recorded ∧
          ListsRenew (((opened scene).after setup moves moment).scene.cache.records.find? key)
            recorded := by
  induction moment with
  | zero =>
      change (scene.cache.entries.find? key = none -> scene.cache.records.find? key = none) ∧
        forall entry, scene.cache.entries.find? key = some entry -> _
      rw [hcache]
      constructor
      · intro _
        rfl
      · intro entry hentry
        cases hentry
  | succ moment ih =>
      have hbefore := ih (Nat.le_of_succ_le hle)
      have hshift : ((opened scene).after setup moves moment).Shift
          ((opened scene).after setup moves (moment + 1)) (moves moment) key :=
        play_shift (checks_after hmoves (Nat.le_of_succ_le hle)) (moves moment) key
      cases hshift with
      | kept hspares hentries hrecords =>
          rw [hentries]
          constructor
          · intro hnone
            rw [hbefore.left hnone] at hrecords
            exact hrecords.eq_none
          · intro entry hentry
            rcases hbefore.right entry hentry with ⟨source, call, recorded, hkey, hlast, hrenew⟩
            subst hkey
            exact ⟨source, call, recorded, rfl, hlast.wait hspares, hrecords.trans hrenew⟩
      | dropped hspares hentries hrecords =>
          rw [hentries, hrecords]
          constructor
          · intro _
            rfl
          · intro entry hentry
            cases hentry
      | entered call entry henters hkey hentries =>
          rw [hentries]
          constructor
          · intro hnone
            cases hnone
          · intro other hother
            cases hother
            refine ⟨moment, call, _, hkey, ⟨Nat.lt_succ_self moment, henters, ?_⟩,
              listsRenew_refl _⟩
            intro later hsource hlater
            exact absurd hsource (Nat.not_lt_of_le (Nat.le_of_lt_succ hlater))

/-- Whatever the moves, as long as no check is interrupted: a key has a list of tracked
files only if it has an entry; the list is the one that was recorded when the entry came
into memory, with newer fingerprints at most; a list that was recorded for a computed value
begins with the key's own file and names no file twice; and an entry has no list only if
its own file could not be captured. -/
theorem coherent_after (hcache : scene.cache = .empty)
    (hmoves : forall moment, moment < count ->
      ((opened scene).after setup moves moment).Uninterrupted Phase.isChecking (moves moment))
    (hle : moment ≤ count) :
    (opened scene).CoherentAt setup moves moment := by
  have hentered := entered_after hcache hmoves hle
  constructor
  case listed =>
    intro key files hfiles
    cases hentry : ((opened scene).after setup moves moment).scene.cache.entries.find? key with
    | some entry => exact ⟨entry, rfl⟩
    | none =>
        rw [(hentered key).left hentry] at hfiles
        cases hfiles
  case entered => exact fun key => (hentered key).right
  case headed =>
    intro source call entry files ticket primary _ henters hphase
    rcases henters.of_computing hphase with ⟨caller, computed, hmem, hcall, hrecorded⟩
    have hcaptured : (opened scene).Captured setup moves source caller.call :=
      captured_after rfl source hmem
    unfold Captured at hcaptured
    rw [hcall, hphase] at hcaptured
    cases primary with
    | none => cases hrecorded
    | some own =>
        rw [Option.some.inj hrecorded]
        rcases addFiles_cons own [] computed.dependencies with ⟨rest, hrest⟩
        exact ⟨⟨own, rest, hrest, hcaptured⟩,
          pairwise_addFiles (List.pairwise_singleton _ _) computed.dependencies⟩
  case unlisted =>
    intro key entry hentry hrecords
    rcases (hentered key).right entry hentry with ⟨source, call, recorded, hkey, hlast, hrenew⟩
    rw [hrecords] at hrenew
    have hrecorded := hrenew.recorded_eq_none
    subst hrecorded
    rcases hlast.enters.of_none with ⟨caller, ticket, hmem, hcall, hphase⟩
    have hcaptured : (opened scene).Captured setup moves source caller.call :=
      captured_after rfl source hmem
    unfold Captured at hcaptured
    rw [hcall, hphase] at hcaptured
    exact ⟨source, call, ticket, hkey, hlast, hphase, hcaptured⟩

end Invariants

/-!
# A file that comes into being and is touched afterwards
-/

def singleFile (seconds : Nat) : FileSystem :=
  (FileSystem.new [] ⟨0, 0⟩).put ["a"] (.file ⟨⟨#[65]⟩, ⟨seconds, 0⟩⟩)

/-- Three calls on a file: it is not there, it is there, it is there under another time. -/
def touchedRun : List (Move FileSystem String) :=
  let start := Move.start (CacheKey.file ⟨"a"⟩) ⟨none, .zero, false⟩
  let next (index : Nat) := Move.advance index 0
  [start, next 0, next 0, next 0, next 0, next 0, .deliver 0 0 (.ok ⟨"v", []⟩), next 0, next 0,
    next 0, .disturb (singleFile 1), start, next 1, next 1, next 1, next 1,
    .deliver 1 0 (.ok ⟨"w", []⟩), next 1, next 1, next 1, .disturb (singleFile 2), start, next 2,
    next 2, next 2, next 2]

def touched (moment : Nat) : Crowd FileSystem String :=
  (opened emptyScene).after ⟨false, none⟩ (script touchedRun) moment

def listedTimes (crowd : Crowd FileSystem String) : Option (List Binary64) :=
  (crowd.scene.cache.records.find? "file:a").map fun files =>
    files.map fun file => file.fingerprint.modified

theorem coherent_after_touched :
    (forall moment, moment < 26 ->
        (touched moment).Uninterrupted Phase.isChecking (script touchedRun moment)) ∧
      (opened emptyScene).CoherentAt ⟨false, none⟩ (script touchedRun) 26 ∧
      [10, 20, 26].map (fun moment => listedTimes (touched moment)) =
        [none, some [(⟨1, 0⟩ : Timestamp).millis], some [(⟨2, 0⟩ : Timestamp).millis]] := by
  have hmoves : forall moment, moment < 26 ->
      (touched moment).Uninterrupted Phase.isChecking (script touchedRun moment) := by
    decide +kernel
  refine ⟨hmoves, ?_, ?_⟩
  · exact coherent_after rfl hmoves (Nat.le_refl 26)
  · decide +kernel

end Crowd
end LessonPress

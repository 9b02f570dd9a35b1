import LessonPress.Proofs.Cache.Stage

/-!
# Steps as transits

## What a step answers with, and how the flights see it

A call is answered by an entry that its lookup has found, by an entry that another
call has stored since, or by what its own computation came to.  A call that joins a
flight comes to no result of its own.
-/

namespace LessonPress

inductive Yield (alpha : Type) where
  | trusted (entry : CacheEntry alpha)
  | checked (entry : CacheEntry alpha) (files : List TrackedFile)
  | rechecked (entry : CacheEntry alpha) (now : UInt64)
  | computed (outcome : Except Error alpha)

namespace Yield

variable {alpha : Type}

def result : Yield alpha -> Except Error alpha
  | trusted entry => .ok entry.value
  | checked entry _ => .ok entry.value
  | rechecked entry _ => .ok entry.value
  | computed outcome => outcome

end Yield

namespace Call

variable {sigma alpha : Type}

def lookup? (call : Call alpha) (scene : Scene sigma alpha) : Option (CacheEntry alpha) :=
  match call.phase with
  | .opening =>
      if call.options.forceFresh then none else scene.cache.entries.find? call.keyText
  | .restoring (.ok (some persisted)) =>
      some ((scene.cache.entries.find? call.keyText).getD persisted.entry)
  | _ => none

def yield? (setup : CacheSetup sigma alpha) (now : UInt64) (call : Call alpha)
    (scene : Scene sigma alpha) : Option (Yield alpha) :=
  match call.phase with
  | .opening => if setup.trust then (call.lookup? scene).map .trusted else none
  | .restoring _ => if setup.trust then (call.lookup? scene).map .trusted else none
  | .scanning entry checked _ [] => some (.checked entry checked)
  | .missed _ seen =>
      if scene.cache.flights.contains call.keyText then none
      else (call.newerEntry now scene seen).map fun entry => .rechecked entry now
  | _ => none

def Transits (call : Call alpha) (scene : Scene sigma alpha)
    (result : Option (Except Error alpha)) (next : Call alpha × Scene sigma alpha) : Prop :=
  Transit call.keyText call.phase.stage scene.cache result (scene.since next.2)
    next.1.phase.stage next.2.cache

structure Ahead (scene before : Scene sigma alpha) : Prop where
  flights : before.cache.SameFlights scene.cache
  length : before.events.length ≤ scene.events.length
  silent : answers (before.since scene) = 0

theorem Ahead.refl (scene : Scene sigma alpha) : Ahead scene scene :=
  ⟨.refl _, Nat.le_refl _, by rw [Scene.since_self]; rfl⟩

theorem Ahead.emit {scene before : Scene sigma alpha} (h : Ahead scene before) (key : String)
    {event : CacheEvent} (hevent : event.isAnswer = false) :
    Ahead (scene.emit key event) before := by
  refine ⟨h.flights, ?_, ?_⟩
  · have hlength := h.length
    simp only [Scene.emit, List.length_append]
    omega
  · rw [Scene.since_emit h.length, answers_append, h.silent]
    simp [answers, hevent]

/-!
# Lookups
-/

inductive Sought (listed : CacheEntry alpha -> List TrackedFile -> Prop) : Phase alpha -> Prop where
  | loading : Sought listed .loading
  | missed (stale : Option alpha) (seen : Option UInt64) : Sought listed (.missed stale seen)
  | done (result : Except Error alpha) : Sought listed (.done result)
  | scanning {entry : CacheEntry alpha} {files : List TrackedFile} :
      listed entry files -> Sought listed (.scanning entry [] false files)

def InMemory (call : Call alpha) (cache : Cache alpha) (entry : CacheEntry alpha)
    (files : List TrackedFile) : Prop :=
  cache.entries.find? call.keyText = some entry ∧ cache.records.find? call.keyText = some files

theorem judge_sought (setup : CacheSetup sigma alpha) (now : UInt64) {call : Call alpha}
    {scene : Scene sigma alpha} {entry : CacheEntry alpha}
    {listed : CacheEntry alpha -> List TrackedFile -> Prop}
    (hlisted : forall files, scene.cache.records.find? call.keyText = some files ->
      listed entry files) :
    exists phase, (call.judge setup now scene entry).1 = call.goTo phase ∧ Sought listed phase := by
  unfold judge
  split
  · exact ⟨_, rfl, .done _⟩
  · split
    · exact ⟨_, rfl, .missed _ _⟩
    · split
      · exact ⟨_, rfl, .missed _ _⟩
      · rename_i files hfiles
        exact ⟨_, rfl, .scanning (hlisted files hfiles)⟩

theorem openCall_sought (setup : CacheSetup sigma alpha) (now : UInt64) (call : Call alpha)
    (scene : Scene sigma alpha) :
    exists phase, (call.openCall setup now scene).1 = call.goTo phase ∧
      Sought (call.InMemory scene.cache) phase := by
  unfold openCall
  split
  · exact ⟨_, rfl, .missed _ _⟩
  · split
    · rename_i entry hentry
      apply judge_sought
      intro files hfiles
      exact ⟨hentry, hfiles⟩
    · exact ⟨_, rfl, .loading⟩

theorem restore_sought (setup : CacheSetup sigma alpha) (now : UInt64) (call : Call alpha)
    (scene : Scene sigma alpha) (loaded : Except Error (Option (PersistedEntry alpha))) :
    exists phase, (call.restore setup now scene loaded).1 = call.goTo phase ∧
      Sought (fun entry files => call.InMemory scene.cache entry files ∨
        exists persisted, loaded = .ok (some persisted) ∧ persisted.entry = entry ∧
          persisted.tracked = files) phase := by
  unfold restore
  split
  · exact ⟨_, rfl, .missed _ _⟩
  · exact ⟨_, rfl, .missed _ _⟩
  · rename_i persisted
    split
    · rename_i entry hentry
      apply judge_sought
      intro files hfiles
      exact Or.inl ⟨hentry, hfiles⟩
    · apply judge_sought
      intro files hfiles
      change (scene.cache.records.insert call.keyText persisted.tracked).find? call.keyText =
        some files at hfiles
      rw [Table.find?_insert_self] at hfiles
      exact Or.inr ⟨persisted, rfl, rfl, Option.some.inj hfiles⟩

theorem miss_transits {call : Call alpha} {scene before : Scene sigma alpha}
    (hstage : call.phase.stage = .searching none) (hahead : Ahead scene before)
    (reason : MissReason) (stale : Option alpha) (seen : Option UInt64) :
    call.Transits before none (call.miss scene reason stale seen) := by
  have hnext : Ahead (scene.emit call.keyText (.miss reason)) before := hahead.emit _ rfl
  unfold Transits
  rw [hstage]
  exact Transit.search hnext.flights hnext.silent

theorem serve_transits {call : Call alpha} {scene before : Scene sigma alpha}
    (hstage : call.phase.stage = .searching none) (hahead : Ahead scene before)
    (value : alpha) {event : CacheEvent} (hevent : event.isAnswer = true)
    (hother : event ≠ .joined) (hnot : .joined ∉ before.since scene) :
    call.Transits before (some (.ok value))
      (call.goTo (.done (.ok value)), scene.emit call.keyText event) := by
  unfold Transits
  rw [hstage]
  refine Transit.serve hahead.flights ?_ ?_
  · rw [Scene.since_emit hahead.length, answers_append, hahead.silent]
    simp [answers, hevent]
  · rw [Scene.since_emit hahead.length]
    simp [hnot, Ne.symm hother]

theorem judge_transits {setup : CacheSetup sigma alpha} {now : UInt64} {call : Call alpha}
    {scene before : Scene sigma alpha} (hstage : call.phase.stage = .searching none)
    (hahead : Ahead scene before) (entry : CacheEntry alpha) :
    call.Transits before (if setup.trust then some (.ok entry.value) else none)
      (call.judge setup now scene entry) := by
  unfold judge
  split
  · exact serve_transits hstage hahead _ rfl (by decide) (not_joined_of_answers hahead.silent)
  · split
    · exact miss_transits hstage hahead _ _ _
    · split
      · exact miss_transits hstage hahead _ _ _
      · unfold Transits
        rw [hstage]
        exact Transit.search hahead.flights hahead.silent

theorem yield?_of_searching {setup : CacheSetup sigma alpha} {now : UInt64} {call : Call alpha}
    {scene : Scene sigma alpha}
    (h : call.phase = .opening ∨ exists loaded, call.phase = .restoring loaded) :
    (call.yield? setup now scene).map Yield.result =
      if setup.trust then (call.lookup? scene).map fun entry => .ok entry.value else none := by
  have hyield : call.yield? setup now scene =
      if setup.trust then (call.lookup? scene).map .trusted else none := by
    unfold yield?
    rcases h with h | ⟨loaded, h⟩ <;> rw [h]
  rw [hyield]
  cases setup.trust with
  | false => rfl
  | true =>
      rw [if_pos rfl, if_pos rfl, Option.map_map]
      rfl

theorem openCall_transits {setup : CacheSetup sigma alpha} {now : UInt64} {call : Call alpha}
    {scene : Scene sigma alpha} (hphase : call.phase = .opening) :
    call.Transits scene ((call.yield? setup now scene).map Yield.result)
      (call.openCall setup now scene) := by
  have hstage : call.phase.stage = .searching none := by rw [hphase]; rfl
  rw [yield?_of_searching (Or.inl hphase)]
  unfold openCall lookup?
  rw [hphase]
  dsimp only
  cases hforce : call.options.forceFresh with
  | true =>
      simpa using miss_transits hstage (.refl scene) .forceFresh none none
  | false =>
      simp only [Bool.false_eq_true, if_false]
      cases hentry : scene.cache.entries.find? call.keyText with
      | none =>
          simp only [Option.map_none, ite_self]
          unfold Transits
          rw [hstage]
          exact Transit.search (.refl _) (Ahead.refl scene).silent
      | some entry => exact judge_transits hstage (.refl scene) entry

theorem load_transits {setup : CacheSetup sigma alpha} {call : Call alpha}
    {scene : Scene sigma alpha} (hstage : call.phase.stage = .searching none) :
    call.Transits scene none (call.load setup scene) := by
  unfold load Transits
  rw [hstage]
  split
  · exact Transit.search (.refl _) (Ahead.refl scene).silent
  · exact Transit.search (.refl _) (Ahead.refl scene).silent

theorem restore_transits {setup : CacheSetup sigma alpha} {now : UInt64} {call : Call alpha}
    {scene : Scene sigma alpha} {loaded : Except Error (Option (PersistedEntry alpha))}
    (hphase : call.phase = .restoring loaded) :
    call.Transits scene ((call.yield? setup now scene).map Yield.result)
      (call.restore setup now scene loaded) := by
  have hstage : call.phase.stage = .searching none := by rw [hphase]; rfl
  rw [yield?_of_searching (Or.inr ⟨loaded, hphase⟩)]
  unfold restore lookup?
  rw [hphase]
  cases loaded with
  | error cause =>
      simpa using miss_transits hstage ((Ahead.refl scene).emit _ rfl) .notCached none none
  | ok found =>
      cases found with
      | none => simpa using miss_transits hstage (.refl scene) .notCached none none
      | some persisted =>
          dsimp only
          cases hentry : scene.cache.entries.find? call.keyText with
          | some entry => exact judge_transits hstage (.refl scene) entry
          | none =>
              have hsilent : CacheEvent.isAnswer .restored = false := rfl
              refine judge_transits hstage (Ahead.emit ?_ _ hsilent) persisted.entry
              exact ⟨⟨rfl, rfl, rfl⟩, Nat.le_refl _, (Ahead.refl scene).silent⟩

theorem changed_transits {call : Call alpha} {scene : Scene sigma alpha}
    (hstage : call.phase.stage = .searching none) (entry : CacheEntry alpha)
    (file : TrackedFile) : call.Transits scene none (call.changed scene entry file) :=
  miss_transits hstage (.refl scene) _ _ _

theorem scan_transits [Disk sigma] {setup : CacheSetup sigma alpha} {now : UInt64}
    {call : Call alpha} {scene : Scene sigma alpha} {entry : CacheEntry alpha}
    {checked : List TrackedFile} {touched : Bool} {pending : List TrackedFile}
    (hphase : call.phase = .scanning entry checked touched pending) :
    call.Transits scene ((call.yield? setup now scene).map Yield.result)
      (call.scan scene entry checked touched pending) := by
  have hstage : call.phase.stage = .searching none := by rw [hphase]; rfl
  unfold scan yield?
  rw [hphase]
  cases pending with
  | nil =>
      refine serve_transits hstage ?_ _ rfl (by decide) ?_
      · exact ⟨⟨rfl, rfl, rfl⟩, Nat.le_refl _, (Ahead.refl scene).silent⟩
      · exact not_joined_of_answers (Ahead.refl scene).silent
  | cons file pending =>
      dsimp only [Option.map_none]
      split
      · unfold Transits
        rw [hstage]
        exact Transit.search (.refl _) (Ahead.refl scene).silent
      · unfold Transits
        rw [hstage]
        exact Transit.search (.refl _) (Ahead.refl scene).silent
      · exact changed_transits hstage entry file

theorem compare_transits [Disk sigma] {call : Call alpha} {scene : Scene sigma alpha}
    (hstage : call.phase.stage = .searching none) (entry : CacheEntry alpha)
    (checked : List TrackedFile) (file : TrackedFile) (current : Fingerprint)
    (pending : List TrackedFile) :
    call.Transits scene none (call.compare scene entry checked file current pending) := by
  unfold compare
  split
  · unfold Transits
    rw [hstage]
    exact Transit.search (.refl _) (Ahead.refl scene).silent
  · exact changed_transits hstage entry file

/-!
# Flights
-/

@[simp] theorem since_land (before : Scene sigma alpha) (call : Call alpha)
    (scene : Scene sigma alpha) (ticket : Ticket alpha) (result : Except Error alpha) :
    before.since (call.land scene ticket result).2 = before.since scene := by
  rfl

theorem enter_transits {setup : CacheSetup sigma alpha} {now : UInt64} {call : Call alpha}
    {scene : Scene sigma alpha} {stale : Option alpha} {seen : Option UInt64}
    (hphase : call.phase = .missed stale seen) :
    call.Transits scene ((call.yield? setup now scene).map Yield.result)
      (call.enter now scene stale seen) := by
  have hstage : call.phase.stage = .searching stale := by rw [hphase]; rfl
  unfold enter yield?
  rw [hphase]
  unfold Transits
  rw [hstage]
  dsimp only
  cases hflight : scene.cache.flights.find? call.keyText with
  | some flight =>
      simp only [Table.contains, hflight, Option.isSome_some, if_true, Option.map_none,
        Scene.since_emit_self]
      exact Transit.join hflight
  | none =>
      simp only [Table.contains, hflight, Option.isSome_none, Bool.false_eq_true, if_false]
      have hnewer : newerEntry now call
          { scene with
            cache :=
              { scene.cache with
                flights := scene.cache.flights.insert call.keyText scene.cache.nextFlight
                nextFlight := scene.cache.nextFlight + 1 } } seen =
          call.newerEntry now scene seen := rfl
      rw [hnewer]
      cases call.newerEntry now scene seen with
      | none =>
          simp only [Option.map_none, Scene.since_mk]
          exact Transit.lead hflight rfl rfl rfl
      | some entry =>
          simp only [Option.map_some, Yield.result, since_land, Scene.since_emit_mk]
          exact Transit.leadServed hflight rfl rfl rfl

theorem capture_transits [Disk sigma] {call : Call alpha} {scene : Scene sigma alpha}
    {ticket : Ticket alpha} (hstage : call.phase.stage = .leading ticket) :
    call.Transits scene none (call.capture scene ticket) := by
  unfold capture Transits
  rw [hstage]
  split
  · rw [Scene.since_self]
    exact Transit.work (.refl _)
  · rw [Scene.since_self]
    exact Transit.work (.refl _)

theorem read_transits [Disk sigma] {call : Call alpha} {scene : Scene sigma alpha}
    {ticket : Ticket alpha} (hstage : call.phase.stage = .leading ticket)
    (fingerprint : Fingerprint) :
    call.Transits scene none (call.read scene ticket fingerprint) := by
  unfold read Transits
  rw [hstage]
  split
  · rw [Scene.since_self]
    exact Transit.work (.refl _)
  · rw [Scene.since_self]
    exact Transit.work (.refl _)

theorem complete_transits {now : UInt64} {call : Call alpha} {scene : Scene sigma alpha}
    {ticket : Ticket alpha} {primary : Option TrackedFile}
    (hphase : call.phase = .computing ticket primary) (outcome : Except Error (Computed alpha)) :
    call.Transits scene (some (outcome.map Computed.value))
      (call.complete now scene outcome) := by
  have hstage : call.phase.stage = .leading ticket := by rw [hphase]; rfl
  unfold complete Transits
  rw [hstage, hphase]
  cases outcome with
  | error cause =>
      dsimp only
      rw [since_land, Scene.since_emit_self]
      exact Transit.fail rfl rfl rfl rfl (by simp)
  | ok computed =>
      have hsince : scene.since
          (((scene.emit call.keyText .computed).emit call.keyText
            (.stored (call.keep now scene.cache primary computed).1.entry.created))) =
          [.computed, .stored (call.keep now scene.cache primary computed).1.entry.created] := by
        simp [Scene.since, Scene.emit]
      refine Transit.compute ⟨rfl, rfl, rfl⟩ ?_ ?_
      · exact congrArg answers hsince
      · intro hmem
        have hlisted := hsince ▸ hmem
        simp at hlisted

/-!
# Storing
-/

theorem save_transits {setup : CacheSetup sigma alpha} {call : Call alpha}
    {scene : Scene sigma alpha} {ticket : Ticket alpha} {persisted : PersistedEntry alpha}
    (hstage : call.phase.stage = .storing ticket persisted.entry.value) :
    call.Transits scene none (call.save setup scene ticket persisted) := by
  unfold save Transits
  rw [hstage]
  split
  · exact Transit.store (.refl _) (Ahead.refl scene).silent
  · exact Transit.store (.refl _) (Ahead.refl scene).silent

theorem ahead_emitFailure {scene before : Scene sigma alpha} (h : Ahead scene before)
    (key : String) (outcome : Except Error Unit) :
    Ahead (scene.emitFailure key outcome) before := by
  cases outcome with
  | error cause => exact h.emit key rfl
  | ok _ => exact h

theorem land_transits {call : Call alpha} {scene before : Scene sigma alpha}
    {ticket : Ticket alpha} {value : alpha} (hstage : call.phase.stage = .storing ticket value)
    (hahead : Ahead scene before) :
    call.Transits before none (call.land scene ticket (.ok value)) := by
  unfold Transits
  rw [hstage, since_land]
  refine Transit.land hahead.flights.flights ?_ hahead.flights.nextFlight hahead.silent
  rw [← hahead.flights.results]
  rfl

theorem supersede_transits {call : Call alpha} {scene : Scene sigma alpha}
    {ticket : Ticket alpha} {value : alpha} (hstage : call.phase.stage = .storing ticket value)
    (outcome : Except Error Unit) :
    call.Transits scene none (call.supersede scene ticket value outcome) := by
  have hahead := ahead_emitFailure (.refl scene) call.keyText outcome
  have hcurrent : Ahead
      { scene.emitFailure call.keyText outcome with
        cache :=
          { (scene.emitFailure call.keyText outcome).cache with
            currentKeys :=
              (scene.emitFailure call.keyText outcome).cache.currentKeys.insert
                call.key.path.components call.keyText } } scene :=
    ⟨⟨hahead.flights.flights, hahead.flights.results, hahead.flights.nextFlight⟩,
      hahead.length, hahead.silent⟩
  unfold supersede
  dsimp only
  split
  · exact land_transits hstage hcurrent
  · split
    · exact land_transits hstage hcurrent
    · unfold Transits
      rw [hstage]
      exact Transit.store
        ⟨hahead.flights.flights, hahead.flights.results, hahead.flights.nextFlight⟩
        hahead.silent

theorem remove_transits {setup : CacheSetup sigma alpha} {call : Call alpha}
    {scene : Scene sigma alpha} {ticket : Ticket alpha} {value : alpha}
    (hstage : call.phase.stage = .storing ticket value) (previous : String) :
    call.Transits scene none (call.remove setup scene ticket value previous) := by
  unfold remove Scene.removeStored Transits
  rw [hstage]
  cases setup.store with
  | none => exact Transit.store (.refl _) (Ahead.refl scene).silent
  | some store => exact Transit.store (.refl _) (Ahead.refl scene).silent

theorem reportSuperseded_transits {call : Call alpha} {scene : Scene sigma alpha}
    {ticket : Ticket alpha} {value : alpha} (hstage : call.phase.stage = .storing ticket value)
    (previous : String) (outcome : Except Error Unit) :
    call.Transits scene none
      (call.reportSuperseded scene ticket value previous outcome) :=
  land_transits hstage ((ahead_emitFailure (.refl scene) previous outcome).emit previous rfl)

/-!
# Answering
-/

theorem receive_transits {call : Call alpha} {scene : Scene sigma alpha}
    {ticket : Ticket alpha} (hstage : call.phase.stage = .awaiting ticket) :
    call.Transits scene none (call.receive scene ticket) := by
  unfold receive Transits
  rw [hstage]
  cases hresult : scene.cache.results.find? ticket.flight with
  | none =>
      dsimp only
      rw [hstage, Scene.since_self]
      exact Transit.stay
  | some result =>
      cases result with
      | ok value =>
          rw [show Except.ok value = settle (.ok value) ticket.stale from rfl]
          exact Transit.receive hresult rfl (Ahead.refl scene).silent
      | error cause =>
          cases hstale : ticket.stale with
          | none =>
              have hsettle : settle (.error cause) ticket.stale = .error cause := by
                rw [hstale]
                rfl
              dsimp only [goTo, Phase.stage]
              rw [← hsettle]
              exact Transit.receive hresult rfl (Ahead.refl scene).silent
          | some value =>
              have hsettle : settle (.error cause) ticket.stale = .ok value := by
                rw [hstale]
                rfl
              dsimp only [goTo, Phase.stage]
              rw [← hsettle, Scene.since_emit_mk]
              exact Transit.receive hresult rfl rfl

theorem step_transits [Disk sigma] (setup : CacheSetup sigma alpha) (now : UInt64)
    (call : Call alpha) (scene : Scene sigma alpha) :
    call.Transits scene ((call.yield? setup now scene).map Yield.result)
      (call.step setup now scene) := by
  have hstay : call.Transits scene none (call, scene) := by
    unfold Transits
    rw [Scene.since_self]
    exact Transit.stay
  -- only a lookup, a finished check and the taking of a flight come to a result
  unfold step
  cases hphase : call.phase with
  | opening => exact openCall_transits hphase
  | loading =>
      simp only [yield?, hphase, Option.map_none]
      exact load_transits (by rw [hphase]; rfl)
  | restoring loaded => exact restore_transits hphase
  | scanning entry checked touched pending => exact scan_transits hphase
  | hashing entry checked file current pending =>
      simp only [yield?, hphase, Option.map_none]
      exact compare_transits (by rw [hphase]; rfl) ..
  | missed stale seen => exact enter_transits hphase
  | capturing ticket =>
      simp only [yield?, hphase, Option.map_none]
      exact capture_transits (by rw [hphase]; rfl)
  | reading ticket fingerprint =>
      simp only [yield?, hphase, Option.map_none]
      exact read_transits (by rw [hphase]; rfl) fingerprint
  | computing ticket primary =>
      simp only [yield?, hphase, Option.map_none]
      exact hstay
  | saving ticket persisted =>
      simp only [yield?, hphase, Option.map_none]
      exact save_transits (by rw [hphase]; rfl)
  | saved ticket value outcome =>
      simp only [yield?, hphase, Option.map_none]
      exact supersede_transits (by rw [hphase]; rfl) outcome
  | removing ticket value previous =>
      simp only [yield?, hphase, Option.map_none]
      exact remove_transits (by rw [hphase]; rfl) previous
  | removed ticket value previous outcome =>
      simp only [yield?, hphase, Option.map_none]
      exact reportSuperseded_transits (by rw [hphase]; rfl) previous outcome
  | waiting ticket =>
      simp only [yield?, hphase, Option.map_none]
      exact receive_transits (by rw [hphase]; rfl)
  | done result =>
      simp only [yield?, hphase, Option.map_none]
      exact hstay

end Call
end LessonPress

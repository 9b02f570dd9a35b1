import LessonPress.Proofs.Cache.Step

/-!
# Crowds of calls

## Many calls on one cache, in any order of their steps

A crowd is a cache on its disk together with the calls that have begun so far.
Moves come one after the other in any order: a call begins, takes its next step or
learns what its computation came to, a key is invalidated, the cache is cleared, or
something outside changes the disk.  Of every call the crowd keeps what an observer
could have noted; nothing of that is read by the calls.
-/

namespace LessonPress

/-- A call and what has been noted of it: when it began and ended, the events it has
caused, the entry its lookup has found and the time read then, what it came to by
itself, and its place in a flight. -/
structure Caller (alpha : Type) where
  call : Call alpha
  start : Nat
  log : List CacheEvent
  found : Option (CacheEntry alpha × UInt64)
  yield : Option (Yield alpha)
  ticket : Option (Ticket alpha)
  finish : Option Nat

namespace Caller

variable {sigma alpha : Type}

def new (key : CacheKey) (options : CallOptions) (moment : Nat) : Caller alpha :=
  ⟨.new key options, moment, [], none, none, none, none⟩

def keyText (caller : Caller alpha) : String :=
  caller.call.keyText

def stage (caller : Caller alpha) : Stage alpha :=
  caller.call.phase.stage

theorem stage_of_done {caller : Caller alpha} {result : Except Error alpha}
    (h : caller.call.phase = .done result) : caller.stage = .done result := by
  unfold stage
  rw [h]
  rfl

def flight? (caller : Caller alpha) : Option Nat :=
  caller.ticket.map Ticket.flight

def Leads (caller : Caller alpha) (flight : Nat) : Prop :=
  .joined ∉ caller.log ∧ caller.flight? = some flight

def note (caller : Caller alpha) (moment : Nat) (scene : Scene sigma alpha)
    (found : Option (CacheEntry alpha × UInt64)) (yield : Option (Yield alpha))
    (next : Call alpha × Scene sigma alpha) : Caller alpha :=
  { call := next.1
    start := caller.start
    log := caller.log ++ scene.since next.2
    found := found.or caller.found
    yield := yield.or caller.yield
    ticket := next.1.phase.stage.ticket?.or caller.ticket
    finish := caller.finish.or (next.1.result?.map fun _ => moment) }

def advance [Disk sigma] (setup : CacheSetup sigma alpha) (now : UInt64) (moment : Nat)
    (scene : Scene sigma alpha) (caller : Caller alpha) : Caller alpha × Scene sigma alpha :=
  let next := caller.call.step setup now scene
  let found := (caller.call.lookup? scene).map fun entry => (entry, now)
  (caller.note moment scene found (caller.call.yield? setup now scene) next, next.2)

/-- Only a call that waits for its computation can be told what it came to. -/
def deliver (now : UInt64) (moment : Nat) (outcome : Except Error (Computed alpha))
    (scene : Scene sigma alpha) (caller : Caller alpha) : Caller alpha × Scene sigma alpha :=
  match caller.call.phase with
  | .computing _ _ =>
      let next := caller.call.complete now scene outcome
      let yield := Yield.computed (outcome.map Computed.value)
      (caller.note moment scene none (some yield) next, next.2)
  | _ => (caller, scene)

end Caller

structure Crowd (sigma alpha : Type) where
  scene : Scene sigma alpha
  callers : List (Caller alpha)
  moment : Nat

inductive Move (sigma alpha : Type) where
  | start (key : CacheKey) (options : CallOptions)
  | advance (index : Nat) (now : UInt64)
  | deliver (index : Nat) (now : UInt64) (outcome : Except Error (Computed alpha))
  | invalidate (key : CacheKey)
  | clear
  | disturb (disk : sigma)

namespace Crowd

variable {sigma alpha : Type}

def opened (scene : Scene sigma alpha) : Crowd sigma alpha :=
  ⟨scene, [], 0⟩

def actAt (crowd : Crowd sigma alpha) (index : Nat)
    (act : Scene sigma alpha -> Caller alpha -> Caller alpha × Scene sigma alpha) :
    Crowd sigma alpha :=
  match crowd.callers[index]? with
  | none => { crowd with moment := crowd.moment + 1 }
  | some caller =>
      { scene := (act crowd.scene caller).2
        callers := crowd.callers.set index (act crowd.scene caller).1
        moment := crowd.moment + 1 }

def play [Disk sigma] (setup : CacheSetup sigma alpha) (crowd : Crowd sigma alpha) :
    Move sigma alpha -> Crowd sigma alpha
  | .start key options =>
      { crowd with
        callers := crowd.callers ++ [.new key options crowd.moment]
        moment := crowd.moment + 1 }
  | .advance index now => crowd.actAt index (Caller.advance setup now crowd.moment)
  | .deliver index now outcome => crowd.actAt index (Caller.deliver now crowd.moment outcome)
  | .invalidate key =>
      { crowd with
        scene := crowd.scene.invalidate setup key
        moment := crowd.moment + 1 }
  | .clear =>
      { crowd with
        scene := { crowd.scene with cache := crowd.scene.cache.clear }
        moment := crowd.moment + 1 }
  | .disturb disk =>
      { crowd with
        scene := { crowd.scene with disk := disk }
        moment := crowd.moment + 1 }

def after [Disk sigma] (setup : CacheSetup sigma alpha) (moves : Nat -> Move sigma alpha)
    (crowd : Crowd sigma alpha) : Nat -> Crowd sigma alpha
  | 0 => crowd
  | count + 1 => (after setup moves crowd count).play setup (moves count)

def script (moves : List (Move sigma alpha)) (count : Nat) : Move sigma alpha :=
  moves.getD count .clear

end Crowd

/-!
# What a move can do
-/

namespace Call

variable {sigma alpha : Type}

def SameCall (call next : Call alpha) : Prop :=
  next.key = call.key ∧ next.options = call.options

theorem sameCall_goTo (call : Call alpha) (phase : Phase alpha) :
    call.SameCall (call.goTo phase) :=
  ⟨rfl, rfl⟩

theorem sameCall_step [Disk sigma] (setup : CacheSetup sigma alpha) (now : UInt64)
    (call : Call alpha) (scene : Scene sigma alpha) :
    call.SameCall (call.step setup now scene).1 := by
  unfold step
  cases call.phase with
  | opening =>
      rcases openCall_sought setup now call scene with ⟨phase, hnext, _⟩
      change call.SameCall (call.openCall setup now scene).1
      rw [hnext]
      exact sameCall_goTo ..
  | loading =>
      dsimp only [load]
      split <;> exact sameCall_goTo ..
  | restoring loaded =>
      rcases restore_sought setup now call scene loaded with ⟨phase, hnext, _⟩
      change call.SameCall (call.restore setup now scene loaded).1
      rw [hnext]
      exact sameCall_goTo ..
  | scanning entry checked touched pending =>
      dsimp only [scan]
      split
      · exact sameCall_goTo ..
      · split <;> exact sameCall_goTo ..
  | hashing entry checked file current pending =>
      dsimp only [compare]
      split <;> exact sameCall_goTo ..
  | missed stale seen =>
      dsimp only [enter]
      split
      · exact sameCall_goTo ..
      · split <;> exact sameCall_goTo ..
  | capturing ticket =>
      dsimp only [capture]
      split <;> exact sameCall_goTo ..
  | reading ticket fingerprint =>
      dsimp only [read]
      split <;> exact sameCall_goTo ..
  | computing ticket primary => exact ⟨rfl, rfl⟩
  | saving ticket persisted =>
      dsimp only [save]
      split <;> exact sameCall_goTo ..
  | saved ticket value outcome =>
      dsimp only [supersede]
      split
      · exact sameCall_goTo ..
      · split <;> exact sameCall_goTo ..
  | removing ticket value previous => exact sameCall_goTo ..
  | removed ticket value previous outcome => exact sameCall_goTo ..
  | waiting ticket =>
      dsimp only [receive]
      split
      · exact ⟨rfl, rfl⟩
      · split <;> exact sameCall_goTo ..
  | done result => exact ⟨rfl, rfl⟩

theorem sameCall_complete (now : UInt64) (call : Call alpha) (scene : Scene sigma alpha)
    (outcome : Except Error (Computed alpha)) :
    call.SameCall (call.complete now scene outcome).1 := by
  unfold complete
  split
  · split <;> exact sameCall_goTo ..
  · exact ⟨rfl, rfl⟩

theorem SameCall.keyText {call next : Call alpha} (h : call.SameCall next) :
    next.keyText = call.keyText := by
  unfold Call.keyText
  rw [h.left]

theorem keyText_step [Disk sigma] (setup : CacheSetup sigma alpha) (now : UInt64)
    (call : Call alpha) (scene : Scene sigma alpha) :
    (call.step setup now scene).1.keyText = call.keyText :=
  (sameCall_step setup now call scene).keyText

theorem keyText_complete (now : UInt64) (call : Call alpha) (scene : Scene sigma alpha)
    (outcome : Except Error (Computed alpha)) :
    (call.complete now scene outcome).1.keyText = call.keyText :=
  (sameCall_complete now call scene outcome).keyText

end Call

namespace Caller

variable {sigma alpha : Type}

structure Acts (moment : Nat) (caller : Caller alpha) (cache : Cache alpha)
    (yield : Option (Yield alpha)) (events : List CacheEvent) (after : Caller alpha)
    (next : Cache alpha) : Prop where
  transit : Transit caller.keyText caller.stage cache (yield.map Yield.result) events
    after.stage next
  sameCall : caller.call.SameCall after.call
  start : after.start = caller.start
  log : after.log = caller.log ++ events
  yield : after.yield = yield.or caller.yield
  ticket : after.ticket = after.stage.ticket?.or caller.ticket
  finish : after.finish = caller.finish.or (after.call.result?.map fun _ => moment)

theorem Acts.keyText {moment : Nat} {caller after : Caller alpha} {cache next : Cache alpha}
    {yield : Option (Yield alpha)} {events : List CacheEvent}
    (h : caller.Acts moment cache yield events after next) : after.keyText = caller.keyText :=
  h.sameCall.keyText

theorem acts_note {moment : Nat} {caller : Caller alpha} {scene : Scene sigma alpha}
    {yield : Option (Yield alpha)} {next : Call alpha × Scene sigma alpha}
    (htransits : caller.call.Transits scene (yield.map Yield.result) next)
    (hcall : caller.call.SameCall next.1) (found : Option (CacheEntry alpha × UInt64)) :
    caller.Acts moment scene.cache yield (scene.since next.2)
      (caller.note moment scene found yield next) next.2.cache where
  transit := htransits
  sameCall := hcall
  start := rfl
  log := rfl
  yield := rfl
  ticket := rfl
  finish := rfl

theorem acts_advance [Disk sigma] (setup : CacheSetup sigma alpha) (now : UInt64)
    (moment : Nat) (scene : Scene sigma alpha) (caller : Caller alpha) :
    caller.Acts moment scene.cache (caller.call.yield? setup now scene)
      (scene.since (caller.advance setup now moment scene).2)
      (caller.advance setup now moment scene).1
      (caller.advance setup now moment scene).2.cache :=
  acts_note (Call.step_transits ..) (Call.sameCall_step ..) _

theorem acts_deliver (now : UInt64) (moment : Nat) (outcome : Except Error (Computed alpha))
    (scene : Scene sigma alpha) (caller : Caller alpha) :
    caller.deliver now moment outcome scene = (caller, scene) ∨
      caller.Acts moment scene.cache (some (.computed (outcome.map Computed.value)))
        (scene.since (caller.deliver now moment outcome scene).2)
        (caller.deliver now moment outcome scene).1
        (caller.deliver now moment outcome scene).2.cache := by
  unfold deliver
  split
  · rename_i ticket primary hphase
    exact Or.inr (acts_note (Call.complete_transits hphase outcome) (Call.sameCall_complete ..) _)
  · exact Or.inl rfl

theorem deliver_cases (now : UInt64) (moment : Nat) (outcome : Except Error (Computed alpha))
    (scene : Scene sigma alpha) (caller : Caller alpha) :
    caller.deliver now moment outcome scene = (caller, scene) ∨
      (exists ticket primary, caller.call.phase = .computing ticket primary) ∧
        (caller.deliver now moment outcome scene).1.call =
          (caller.call.complete now scene outcome).1 ∧
        (caller.deliver now moment outcome scene).2 =
          (caller.call.complete now scene outcome).2 := by
  unfold deliver
  split
  · rename_i ticket primary hphase
    exact Or.inr ⟨⟨ticket, primary, hphase⟩, rfl, rfl⟩
  · exact Or.inl rfl

end Caller

namespace Crowd

variable {sigma alpha : Type}

inductive Change (crowd next : Crowd sigma alpha) : Prop where
  | outside :
      next.callers = crowd.callers -> crowd.scene.cache.SameFlights next.scene.cache ->
      Change crowd next
  | enter (key : CacheKey) (options : CallOptions) :
      next.callers = crowd.callers ++ [.new key options crowd.moment] ->
      next.scene = crowd.scene -> Change crowd next
  | act (index : Nat) (caller after : Caller alpha) (yield : Option (Yield alpha))
      (events : List CacheEvent) :
      crowd.callers[index]? = some caller ->
      caller.Acts crowd.moment crowd.scene.cache yield events after next.scene.cache ->
      next.callers = crowd.callers.set index after -> Change crowd next

theorem sameFlights_invalidate (setup : CacheSetup sigma alpha) (scene : Scene sigma alpha)
    (key : CacheKey) : scene.cache.SameFlights (scene.invalidate setup key).cache := by
  have hretire : scene.cache.SameFlights (scene.cache.retire key) := by
    unfold Cache.retire
    split
    · exact ⟨rfl, rfl, rfl⟩
    · exact .refl _
  have hforget : scene.cache.SameFlights ((scene.cache.retire key).forget key.text) :=
    ⟨hretire.flights, hretire.results, hretire.nextFlight⟩
  unfold Scene.invalidate Scene.removeStored
  cases setup.store with
  | none => exact hforget
  | some store =>
      dsimp only
      cases (store.remove key.text scene.disk).1 with
      | ok _ => exact hforget
      | error cause => exact hforget

theorem set_getElem?_self {beta : Type} {items : List beta} {index : Nat} {item : beta}
    (h : items[index]? = some item) : items.set index item = items := by
  obtain ⟨hlt, hitem⟩ := List.getElem?_eq_some_iff.mp h
  rw [← hitem]
  exact List.set_getElem_self hlt

theorem actAt_eq (crowd : Crowd sigma alpha) (index : Nat)
    (act : Scene sigma alpha -> Caller alpha -> Caller alpha × Scene sigma alpha) :
    (crowd.callers[index]? = none ∧ (crowd.actAt index act).scene = crowd.scene ∧
        (crowd.actAt index act).callers = crowd.callers) ∨
      exists caller, crowd.callers[index]? = some caller ∧
        (crowd.actAt index act).scene = (act crowd.scene caller).2 ∧
        (crowd.actAt index act).callers = crowd.callers.set index (act crowd.scene caller).1 := by
  unfold actAt
  cases crowd.callers[index]? with
  | none => exact Or.inl ⟨rfl, rfl, rfl⟩
  | some caller => exact Or.inr ⟨caller, rfl, rfl, rfl⟩

theorem actAt_change (crowd : Crowd sigma alpha) (index : Nat)
    (act : Scene sigma alpha -> Caller alpha -> Caller alpha × Scene sigma alpha)
    (hact : forall caller, act crowd.scene caller = (caller, crowd.scene) ∨
      exists yield events,
        caller.Acts crowd.moment crowd.scene.cache yield events (act crowd.scene caller).1
          (act crowd.scene caller).2.cache) :
    crowd.Change (crowd.actAt index act) := by
  unfold actAt
  cases hcaller : crowd.callers[index]? with
  | none => exact Change.outside rfl (.refl _)
  | some caller =>
      dsimp only
      cases hact caller with
      | inl hidle =>
          rw [hidle]
          exact Change.outside (set_getElem?_self hcaller) (.refl _)
      | inr hacts =>
          rcases hacts with ⟨yield, events, hacts⟩
          exact Change.act index caller _ yield events hcaller hacts rfl

theorem play_change [Disk sigma] (setup : CacheSetup sigma alpha) (crowd : Crowd sigma alpha)
    (move : Move sigma alpha) : crowd.Change (crowd.play setup move) := by
  cases move with
  | start key options => exact Change.enter key options rfl rfl
  | advance index now =>
      apply actAt_change crowd index (Caller.advance setup now crowd.moment)
      intro caller
      exact Or.inr ⟨_, _, Caller.acts_advance ..⟩
  | deliver index now outcome =>
      apply actAt_change crowd index (Caller.deliver now crowd.moment outcome)
      intro caller
      cases Caller.acts_deliver now crowd.moment outcome crowd.scene caller with
      | inl hidle => exact Or.inl hidle
      | inr hacts => exact Or.inr ⟨_, _, hacts⟩
  | invalidate key => exact Change.outside rfl (sameFlights_invalidate ..)
  | clear => exact Change.outside rfl ⟨rfl, rfl, rfl⟩
  | disturb disk => exact Change.outside rfl (.refl _)

theorem play_moment [Disk sigma] (setup : CacheSetup sigma alpha) (crowd : Crowd sigma alpha)
    (move : Move sigma alpha) : (crowd.play setup move).moment = crowd.moment + 1 := by
  have hact : forall index
      (act : Scene sigma alpha -> Caller alpha -> Caller alpha × Scene sigma alpha),
      (crowd.actAt index act).moment = crowd.moment + 1 := by
    intro index act
    unfold actAt
    split <;> rfl
  cases move with
  | advance index now => exact hact ..
  | deliver index now outcome => exact hact ..
  | _ => rfl

theorem play_advance_cases [Disk sigma] (setup : CacheSetup sigma alpha)
    (crowd : Crowd sigma alpha) (index : Nat) (now : UInt64) :
    (crowd.callers[index]? = none ∧
        (crowd.play setup (.advance index now)).scene = crowd.scene ∧
        (crowd.play setup (.advance index now)).callers = crowd.callers) ∨
      exists caller after, crowd.callers[index]? = some caller ∧
        after.call = (caller.call.step setup now crowd.scene).1 ∧
        (crowd.play setup (.advance index now)).scene =
          (caller.call.step setup now crowd.scene).2 ∧
        (crowd.play setup (.advance index now)).callers = crowd.callers.set index after := by
  rcases actAt_eq crowd index (Caller.advance setup now crowd.moment) with
    hnone | ⟨caller, hcaller, hscene, hcallers⟩
  · exact Or.inl hnone
  · exact Or.inr ⟨caller, _, hcaller, rfl, hscene, hcallers⟩

theorem play_deliver_cases [Disk sigma] (setup : CacheSetup sigma alpha)
    (crowd : Crowd sigma alpha) (index : Nat) (now : UInt64)
    (outcome : Except Error (Computed alpha)) :
    ((crowd.play setup (.deliver index now outcome)).scene = crowd.scene ∧
        (crowd.play setup (.deliver index now outcome)).callers = crowd.callers) ∨
      exists caller after ticket primary, crowd.callers[index]? = some caller ∧
        caller.call.phase = .computing ticket primary ∧
        after.call = (caller.call.complete now crowd.scene outcome).1 ∧
        (crowd.play setup (.deliver index now outcome)).scene =
          (caller.call.complete now crowd.scene outcome).2 ∧
        (crowd.play setup (.deliver index now outcome)).callers =
          crowd.callers.set index after := by
  rcases actAt_eq crowd index (Caller.deliver now crowd.moment outcome) with
    ⟨_, hscene, hcallers⟩ | ⟨caller, hcaller, hscene, hcallers⟩
  · exact Or.inl ⟨hscene, hcallers⟩
  · rcases Caller.deliver_cases now crowd.moment outcome crowd.scene caller with
      hidle | ⟨⟨ticket, primary, hphase⟩, hcall, hnext⟩
    · rw [hidle] at hscene hcallers
      rw [set_getElem?_self hcaller] at hcallers
      exact Or.inl ⟨hscene, hcallers⟩
    · rw [hnext] at hscene
      exact Or.inr ⟨caller, _, ticket, primary, hcaller, hphase, hcall, hscene, hcallers⟩

theorem play_deliver_eq [Disk sigma] (setup : CacheSetup sigma alpha) (crowd : Crowd sigma alpha)
    (index : Nat) (now : UInt64) (outcome : Except Error (Computed alpha)) :
    (crowd.callers[index]? = none ∧
        (crowd.play setup (.deliver index now outcome)).scene = crowd.scene ∧
        (crowd.play setup (.deliver index now outcome)).callers = crowd.callers) ∨
      exists caller after, crowd.callers[index]? = some caller ∧
        after.call = (caller.call.complete now crowd.scene outcome).1 ∧
        (crowd.play setup (.deliver index now outcome)).scene =
          (caller.call.complete now crowd.scene outcome).2 ∧
        (crowd.play setup (.deliver index now outcome)).callers =
          crowd.callers.set index after := by
  rcases actAt_eq crowd index (Caller.deliver now crowd.moment outcome) with
    hnone | ⟨caller, hcaller, hscene, hcallers⟩
  · exact Or.inl hnone
  · refine Or.inr ⟨caller, _, hcaller, ?_, hscene.trans ?_, hcallers⟩
    · unfold Caller.deliver Call.complete
      cases caller.call.phase <;> rfl
    · unfold Caller.deliver Call.complete
      cases caller.call.phase <;> rfl

inductive Came [Disk sigma] (setup : CacheSetup sigma alpha) (crowd : Crowd sigma alpha)
    (move : Move sigma alpha) (caller : Caller alpha) : Prop where
  | stood : caller ∈ crowd.callers -> Came setup crowd move caller
  | begun (key : CacheKey) (options : CallOptions) :
      caller = .new key options crowd.moment -> Came setup crowd move caller
  | stepped (index : Nat) (now : UInt64) (before : Caller alpha) :
      move = .advance index now -> crowd.callers[index]? = some before ->
      caller.call = (before.call.step setup now crowd.scene).1 -> Came setup crowd move caller
  | completed (index : Nat) (now : UInt64) (outcome : Except Error (Computed alpha))
      (before : Caller alpha) (ticket : Ticket alpha) (primary : Option TrackedFile) :
      move = .deliver index now outcome -> crowd.callers[index]? = some before ->
      before.call.phase = .computing ticket primary ->
      caller.call = (before.call.complete now crowd.scene outcome).1 ->
      Came setup crowd move caller

theorem came_play [Disk sigma] {setup : CacheSetup sigma alpha} {crowd : Crowd sigma alpha}
    {move : Move sigma alpha} {caller : Caller alpha}
    (hmem : caller ∈ (crowd.play setup move).callers) : Came setup crowd move caller := by
  cases move with
  | start key options =>
      rcases List.mem_append.mp hmem with hold | hnew
      · exact .stood hold
      · exact .begun key options (List.mem_singleton.mp hnew)
  | advance index now =>
      rcases play_advance_cases setup crowd index now with
        ⟨_, _, hcallers⟩ | ⟨before, after, hbefore, hafter, _, hcallers⟩
      · rw [hcallers] at hmem
        exact .stood hmem
      · rw [hcallers] at hmem
        rcases List.mem_or_eq_of_mem_set hmem with hold | hnew
        · exact .stood hold
        · rw [hnew]
          exact .stepped index now before rfl hbefore hafter
  | deliver index now outcome =>
      rcases play_deliver_cases setup crowd index now outcome with
        ⟨_, hcallers⟩ | ⟨before, after, ticket, primary, hbefore, hphase, hafter, _, hcallers⟩
      · rw [hcallers] at hmem
        exact .stood hmem
      · rw [hcallers] at hmem
        rcases List.mem_or_eq_of_mem_set hmem with hold | hnew
        · exact .stood hold
        · rw [hnew]
          exact .completed index now outcome before ticket primary rfl hbefore hphase hafter
  | invalidate key => exact .stood hmem
  | clear => exact .stood hmem
  | disturb disk => exact .stood hmem

end Crowd
end LessonPress

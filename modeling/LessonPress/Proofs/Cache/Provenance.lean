import LessonPress.Proofs.Cache.SingleFlight

/-!
# Provenance of answers

## Where values and errors come from, and what a failure leaves behind

A value comes from a computation, from an entry that had not expired, or from an
expired one that stands in for a failure.  An error comes from the computation of the
call's own flight.  A failure changes nothing but the flight, and nobody who begins
after the flight is gone hears of it.
-/

namespace LessonPress

/-- Whether a call comes to such an answer with a place in a flight. -/
def Yield.flown {alpha : Type} : Yield alpha -> Bool
  | trusted _ => false
  | checked _ _ => false
  | rechecked _ _ => true
  | computed _ => true

namespace Call

variable {sigma alpha : Type}

theorem judge_ticket? (setup : CacheSetup sigma alpha) (now : UInt64) (call : Call alpha)
    (scene : Scene sigma alpha) (entry : CacheEntry alpha) :
    (call.judge setup now scene entry).1.phase.stage.ticket? = none := by
  unfold judge
  split
  · rfl
  · split
    · rfl
    · split <;> rfl

theorem yield?_flown [Disk sigma] {setup : CacheSetup sigma alpha} {now : UInt64}
    {call : Call alpha} {scene : Scene sigma alpha} {yield : Yield alpha}
    (h : call.yield? setup now scene = some yield) :
    yield.flown = (call.step setup now scene).1.phase.stage.ticket?.isSome ∧
      exists stale, call.phase.stage = .searching stale := by
  have htrusted : forall lookup : Option (CacheEntry alpha),
      (if setup.trust = true then lookup.map Yield.trusted else none) = some yield ->
      yield.flown = false := by
    intro lookup htrust
    split at htrust
    · obtain ⟨entry, _, hentry⟩ := Option.map_eq_some_iff.mp htrust
      rw [← hentry]
      rfl
    · cases htrust
  unfold yield? at h
  unfold step
  cases hphase : call.phase with
  | opening =>
      rw [hphase] at h
      refine ⟨?_, _, rfl⟩
      rw [htrusted _ h]
      dsimp only [openCall]
      split
      · rfl
      · split
        · rw [judge_ticket?]
          rfl
        · rfl
  | restoring loaded =>
      rw [hphase] at h
      refine ⟨?_, _, rfl⟩
      rw [htrusted _ h]
      dsimp only [restore]
      split
      · rfl
      · rfl
      · split
        · rw [judge_ticket?]
          rfl
        · rw [judge_ticket?]
          rfl
  | scanning entry checked touched pending =>
      rw [hphase] at h
      cases pending with
      | nil =>
          cases h
          exact ⟨rfl, _, rfl⟩
      | cons file rest => cases h
  | missed stale seen =>
      rw [hphase] at h
      refine ⟨?_, _, rfl⟩
      dsimp only at h
      split at h
      · cases h
      · obtain ⟨entry, hnewer, hentry⟩ := Option.map_eq_some_iff.mp h
        rw [← hentry]
        dsimp only [enter]
        split
        · rfl
        · split <;> rfl
  | _ =>
      rw [hphase] at h
      cases h

end Call

namespace Caller

variable {sigma alpha : Type} {moment : Nat} {caller after : Caller alpha}
  {cache next : Cache alpha} {yield : Option (Yield alpha)} {events : List CacheEvent}

theorem Fits.stage_of_finish (h : caller.Fits cache) {ended : Nat}
    (hfinish : caller.finish = some ended) : exists result, caller.stage = .done result := by
  have hfinished := h.finished
  rw [hfinish] at hfinished
  cases hstage : caller.stage with
  | done result => exact ⟨result, rfl⟩
  | _ =>
      rw [hstage] at hfinished
      cases hfinished

def Matched (caller : Caller alpha) : Prop :=
  forall yield, caller.yield = some yield -> yield.flown = caller.ticket.isSome

theorem Matched.advance [Disk sigma] {setup : CacheSetup sigma alpha} {caller : Caller alpha}
    (h : caller.Matched) (hcoherent : caller.Coherent) (now : UInt64) (moment : Nat)
    (scene : Scene sigma alpha) : (caller.advance setup now moment scene).1.Matched := by
  intro own hown
  change (caller.call.yield? setup now scene).or caller.yield = some own at hown
  change own.flown =
    ((caller.call.step setup now scene).1.phase.stage.ticket?.or caller.ticket).isSome
  unfold Coherent at hcoherent
  rw [Option.or_eq_some_iff] at hown
  rcases hown with hnow | ⟨_, hold⟩
  · obtain ⟨hflown, stale, hstage⟩ := Call.yield?_flown hnow
    have hnone : caller.ticket = none := by
      unfold Caller.stage at hcoherent
      rw [hstage] at hcoherent
      exact hcoherent.left
    rw [hflown, hnone, Option.or_none]
  · have hmatched := h own hold
    cases hticket : caller.ticket with
    | some ticket =>
        rw [hmatched, hticket]
        simp
    | none =>
        -- a call without a place in a flight has come to something only when it is done
        have hdone : exists result, caller.call.phase = .done result := by
          unfold Caller.stage at hcoherent
          cases hphase : caller.call.phase <;> rw [hphase] at hcoherent <;>
            simp_all [Phase.stage]
        rcases hdone with ⟨result, hdone⟩
        rw [hmatched, hticket]
        unfold Call.step
        rw [hdone]
        dsimp only
        rw [hdone]
        rfl

theorem Matched.deliver {caller : Caller alpha} (h : caller.Matched) (now : UInt64)
    (moment : Nat) (outcome : Except Error (Computed alpha)) (scene : Scene sigma alpha) :
    (caller.deliver now moment outcome scene).1.Matched := by
  unfold Caller.deliver
  split
  · rename_i ticket primary hphase
    intro own hown
    cases hown
    unfold Call.complete
    rw [hphase]
    cases outcome with
    | error cause => rfl
    | ok computed => rfl
  · exact h

theorem Acts.flight?_of_done (hacts : caller.Acts moment cache yield events after next)
    {result : Except Error alpha} (hdone : caller.stage = .done result) :
    after.flight? = caller.flight? := by
  have htransit := hacts.transit
  unfold flight?
  rw [hacts.ticket]
  rw [hdone] at htransit
  generalize after.stage = stage' at *
  generalize yield.map Yield.result = given at htransit
  cases htransit with
  | stay => rfl

end Caller

namespace Crowd

variable {sigma alpha : Type}

def Early (crowd : Crowd sigma alpha) : Prop :=
  forall (caller other : Caller alpha) (flight moment : Nat),
    caller ∈ crowd.callers -> other ∈ crowd.callers -> caller.flight? = some flight ->
    other.flight? = some flight -> other.finish = some moment -> caller.start < moment

section Act

variable {crowd next : Crowd sigma alpha} {index : Nat} {caller after : Caller alpha}
  {yield : Option (Yield alpha)} {events : List CacheEvent}

/-- A call that has a flight after a step had it before, or it has joined or opened it. -/
theorem flight_before_act (h : crowd.Orderly) (hcaller : crowd.callers[index]? = some caller)
    (hacts : caller.Acts crowd.moment crowd.scene.cache yield events after next.scene.cache)
    (hcallers : next.callers = crowd.callers.set index after) {other : Caller alpha}
    (hother : other ∈ next.callers) {flight : Nat} (hflight : other.flight? = some flight) :
    exists old, old ∈ crowd.callers ∧ old.start = other.start ∧
      (old.flight? = some flight ∨
        (exists key, crowd.scene.cache.flights.find? key = some flight) ∨
        flight = crowd.scene.cache.nextFlight) := by
  have hmem := List.mem_of_getElem? hcaller
  have hfits := h.fits index caller hcaller
  rw [hcallers] at hother
  rcases List.mem_or_eq_of_mem_set hother with hold | heq
  · exact ⟨other, hold, rfl, Or.inl hflight⟩
  · subst heq
    refine ⟨caller, hmem, hacts.start.symm, ?_⟩
    rcases hacts.flight?_cases hfits hflight with hbefore | hjoined | ⟨_, hleads, _⟩
    · exact Or.inl hbefore
    · exact Or.inr (Or.inl ⟨caller.keyText, hjoined⟩)
    · rcases hacts.leads hfits.coherent hleads with hbefore | ⟨_, _, hopened⟩
      · exact Or.inl hbefore.right
      · exact Or.inr (Or.inr hopened)

theorem finish_before_act (h : crowd.Orderly) (hcaller : crowd.callers[index]? = some caller)
    (hacts : caller.Acts crowd.moment crowd.scene.cache yield events after next.scene.cache)
    (hcallers : next.callers = crowd.callers.set index after) {other : Caller alpha}
    (hother : other ∈ next.callers) {flight ended : Nat} (hflight : other.flight? = some flight)
    (hfinish : other.finish = some ended) :
    ended = crowd.moment ∨
      exists old, old ∈ crowd.callers ∧ old.flight? = some flight ∧ old.finish = some ended := by
  rw [hcallers] at hother
  rcases List.mem_or_eq_of_mem_set hother with hold | heq
  · exact Or.inr ⟨other, hold, hflight, hfinish⟩
  · subst heq
    rw [hacts.finish, Option.or_eq_some_iff] at hfinish
    rcases hfinish with hbefore | ⟨_, hnow⟩
    · rcases (h.fits index caller hcaller).stage_of_finish hbefore with ⟨result, hdone⟩
      rw [hacts.flight?_of_done hdone] at hflight
      exact Or.inr ⟨caller, List.mem_of_getElem? hcaller, hflight, hbefore⟩
    · obtain ⟨_, _, hmoment⟩ := Option.map_eq_some_iff.mp hnow
      exact Or.inl hmoment.symm

theorem Early.act (hearly : crowd.Early) (h : crowd.Orderly)
    (hcaller : crowd.callers[index]? = some caller)
    (hacts : caller.Acts crowd.moment crowd.scene.cache yield events after next.scene.cache)
    (hcallers : next.callers = crowd.callers.set index after) : next.Early := by
  intro first second flight ended hfirst hsecond hflight hflight' hfinish
  rcases flight_before_act h hcaller hacts hcallers hfirst hflight with
    ⟨old, hold, hstart, horigin⟩
  rw [← hstart]
  rcases finish_before_act h hcaller hacts hcallers hsecond hflight' hfinish with
    hnow | ⟨gone, hgone, hgoneFlight, hgoneFinish⟩
  · obtain ⟨place, hplace⟩ := List.mem_iff_getElem?.mp hold
    rw [hnow]
    exact h.started place old hplace
  · obtain ⟨place, hplace⟩ := List.mem_iff_getElem?.mp hgone
    have hfits := h.fits place gone hplace
    rcases hfits.stage_of_finish hgoneFinish with ⟨result, hdone⟩
    rcases horigin with hsame | ⟨key, hslot⟩ | hopened
    · exact hearly old gone flight ended hold hgone hsame hgoneFlight hgoneFinish
    · exact absurd hslot (hfits.gone result flight hdone hgoneFlight key)
    · have hbound := (h.led place gone flight hplace hgoneFlight).left
      omega

end Act

theorem Early.play [Disk sigma] (setup : CacheSetup sigma alpha) {crowd : Crowd sigma alpha}
    (hearly : crowd.Early) (h : crowd.Orderly) (move : Move sigma alpha) :
    (crowd.play setup move).Early := by
  cases crowd.play_change setup move with
  | outside hcallers _ =>
      unfold Early
      rw [hcallers]
      exact hearly
  | enter key options hcallers _ =>
      intro caller other flight ended hcaller hother hflight hflight' hfinish
      rw [hcallers] at hcaller hother
      rcases List.mem_append.mp hcaller with hcaller | hnew
      · rcases List.mem_append.mp hother with hother | hnew
        · exact hearly caller other flight ended hcaller hother hflight hflight' hfinish
        · rw [List.mem_singleton.mp hnew] at hfinish
          cases hfinish
      · rw [List.mem_singleton.mp hnew] at hflight
        cases hflight
  | act index caller after yield events hcaller hacts hcallers =>
      exact hearly.act h hcaller hacts hcallers

theorem Orderly.early_after [Disk sigma] (setup : CacheSetup sigma alpha)
    {crowd : Crowd sigma alpha} (h : crowd.Orderly) (hearly : crowd.Early)
    (moves : Nat -> Move sigma alpha) (count : Nat) :
    (crowd.after setup moves count).Early := by
  induction count with
  | zero => exact hearly
  | succ count ih => exact ih.play setup (h.after setup moves count) (moves count)

theorem early_opened (scene : Scene sigma alpha) : (opened scene).Early := by
  intro caller other flight moment hmem
  cases hmem

/-!
# Failures
-/

structure SameKept (crowd next : Crowd sigma alpha) : Prop where
  cache : crowd.scene.cache.SameContent next.scene.cache
  disk : next.scene.disk = crowd.scene.disk

structure Failed (crowd next : Crowd sigma alpha) (index : Nat) (ticket : Ticket alpha)
    (cause : Error) : Prop where
  kept : crowd.SameKept next
  landed : next.scene.cache.results.find? ticket.flight = some (.error cause)
  waits : exists caller, next.callers[index]? = some caller ∧ caller.call.phase = .waiting ticket

structure Given (crowd next : Crowd sigma alpha) (index : Nat) (result : Except Error alpha) :
    Prop where
  kept : crowd.SameKept next
  ended : exists caller, next.callers[index]? = some caller ∧ caller.call.phase = .done result

theorem actAt_of_getElem? {crowd : Crowd sigma alpha} {index : Nat} {caller : Caller alpha}
    (hcaller : crowd.callers[index]? = some caller)
    (act : Scene sigma alpha -> Caller alpha -> Caller alpha × Scene sigma alpha) :
    (crowd.actAt index act).scene = (act crowd.scene caller).2 ∧
      (crowd.actAt index act).callers[index]? = some (act crowd.scene caller).1 := by
  have hlt := (List.getElem?_eq_some_iff.mp hcaller).choose
  unfold actAt
  rw [hcaller]
  exact ⟨rfl, by simp [hlt]⟩

theorem play_failure [Disk sigma] (setup : CacheSetup sigma alpha) {crowd : Crowd sigma alpha}
    {index : Nat} {caller : Caller alpha} {ticket : Ticket alpha}
    {primary : Option TrackedFile} (hcaller : crowd.callers[index]? = some caller)
    (hphase : caller.call.phase = .computing ticket primary) (now : UInt64) (cause : Error) :
    crowd.Failed (crowd.play setup (.deliver index now (.error cause))) index ticket cause := by
  have hact := actAt_of_getElem? hcaller (Caller.deliver now crowd.moment (.error cause))
  have hdeliver : Caller.deliver now crowd.moment (.error cause) crowd.scene caller =
      (caller.note crowd.moment crowd.scene none (some (.computed (.error cause)))
        (caller.call.complete now crowd.scene (.error cause)),
        (caller.call.complete now crowd.scene (.error cause)).2) := by
    unfold Caller.deliver
    rw [hphase]
    rfl
  have hcomplete : caller.call.complete now crowd.scene (.error cause) =
      caller.call.land
        (crowd.scene.emit caller.call.keyText (.computeFailed cause.message)) ticket
        (.error cause) := by
    unfold Call.complete
    rw [hphase]
  rw [hdeliver, hcomplete] at hact
  change (crowd.play setup (.deliver index now (.error cause))).scene = _ ∧ _ at hact
  refine ⟨⟨?_, ?_⟩, ?_, _, hact.right, rfl⟩
  · rw [hact.left]
    exact ⟨rfl, rfl, rfl⟩
  · rw [hact.left]
    rfl
  · rw [hact.left]
    exact Table.find?_insert_self ..

theorem play_receive [Disk sigma] (setup : CacheSetup sigma alpha) {crowd : Crowd sigma alpha}
    {index : Nat} {caller : Caller alpha} {ticket : Ticket alpha} {cause : Error}
    (hcaller : crowd.callers[index]? = some caller)
    (hphase : caller.call.phase = .waiting ticket)
    (hfound : crowd.scene.cache.results.find? ticket.flight = some (.error cause))
    (now : UInt64) :
    crowd.Given (crowd.play setup (.advance index now)) index
      (settle (.error cause) ticket.stale) := by
  have hact := actAt_of_getElem? hcaller (Caller.advance setup now crowd.moment)
  have hstep : caller.call.step setup now crowd.scene = caller.call.receive crowd.scene ticket := by
    unfold Call.step
    rw [hphase]
  have hrelease : crowd.scene.cache.SameContent
      (Call.release crowd.scene.cache caller.call.keyText ticket.flight) := by
    unfold Call.release
    split
    · exact ⟨rfl, rfl, rfl⟩
    · exact .refl _
  change (crowd.play setup (.advance index now)).scene =
    (caller.call.step setup now crowd.scene).2 ∧ _ at hact
  rw [hstep] at hact
  have hkept : crowd.scene.cache.SameContent (caller.call.receive crowd.scene ticket).2.cache ∧
      (caller.call.receive crowd.scene ticket).2.disk = crowd.scene.disk := by
    unfold Call.receive
    rw [hfound]
    cases ticket.stale with
    | none => exact ⟨hrelease, rfl⟩
    | some value => exact ⟨hrelease, rfl⟩
  rw [← hact.left] at hkept
  refine ⟨⟨hkept.left, hkept.right⟩, _, hact.right, ?_⟩
  change (caller.call.step setup now crowd.scene).1.phase = _
  rw [hstep]
  unfold Call.receive
  rw [hfound]
  cases ticket.stale with
  | none => rfl
  | some value => rfl

/-!
# Answers
-/

/-- The call answers from an entry that its lookup has found at a time, or that the
leader of its flight has found when it took the flight. -/
def AnswersFrom (crowd : Crowd sigma alpha) (caller : Caller alpha) (entry : CacheEntry alpha)
    (now : UInt64) : Prop :=
  (caller.found = some (entry, now) ∧ exists files, caller.yield = some (.checked entry files)) ∨
    crowd.FlightCame caller (.rechecked entry now)

structure Provenance [Disk sigma] (setup : CacheSetup sigma alpha)
    (crowd : Crowd sigma alpha) : Prop where
  error : forall caller cause, caller ∈ crowd.callers ->
    caller.call.phase = .done (.error cause) ->
    crowd.FlightCame caller (.computed (.error cause)) ∧ standIn caller.found = none
  value : forall caller value, setup.trust = false -> caller ∈ crowd.callers ->
    caller.call.phase = .done (.ok value) ->
    crowd.FlightCame caller (.computed (.ok value)) ∨
      (exists entry now, crowd.AnswersFrom caller entry now ∧ ¬ entry.Expired now ∧
        entry.value = value) ∨
      (exists entry now cause, caller.found = some (entry, now) ∧ entry.Expired now ∧
        entry.InGrace now ∧ entry.value = value ∧ caller.call.options.forceFresh = false ∧
        crowd.FlightCame caller (.computed (.error cause)))
  failure : forall (index : Nat) (caller : Caller alpha) (ticket : Ticket alpha)
    (primary : Option TrackedFile) (now : UInt64) (cause : Error),
    crowd.callers[index]? = some caller -> caller.call.phase = .computing ticket primary ->
    crowd.Failed (crowd.play setup (.deliver index now (.error cause))) index ticket cause
  given : forall (index : Nat) (caller : Caller alpha) (ticket : Ticket alpha) (now : UInt64)
    (cause : Error),
    crowd.callers[index]? = some caller -> caller.call.phase = .waiting ticket ->
    crowd.scene.cache.results.find? ticket.flight = some (.error cause) ->
    crowd.Given (crowd.play setup (.advance index now)) index
      (settle (.error cause) ticket.stale)
  released : forall caller result flight, caller ∈ crowd.callers ->
    caller.call.phase = .done result -> caller.flight? = some flight ->
    forall key, crowd.scene.cache.flights.find? key ≠ some flight
  early : crowd.Early

theorem settle_eq_error {result : Except Error alpha} {stale : Option alpha} {cause : Error}
    (h : settle result stale = .error cause) : result = .error cause ∧ stale = none := by
  cases result with
  | ok value => cases h
  | error other =>
      cases stale with
      | none => exact ⟨h, rfl⟩
      | some value => cases h

theorem settle_eq_ok {result : Except Error alpha} {stale : Option alpha} {value : alpha}
    (h : settle result stale = .ok value) :
    result = .ok value ∨ ((exists cause, result = .error cause) ∧ stale = some value) := by
  cases result with
  | ok own => exact Or.inl h
  | error cause =>
      cases stale with
      | none => cases h
      | some own =>
          cases h
          exact Or.inr ⟨⟨cause, rfl⟩, rfl⟩

theorem yield_eq_of_error {yield : Yield alpha} {cause : Error}
    (h : yield.result = .error cause) : yield = .computed (.error cause) := by
  cases yield with
  | computed outcome => exact congrArg Yield.computed h
  | _ => cases h

theorem Orderly.yield_of_done {crowd : Crowd sigma alpha} (h : crowd.Orderly)
    {caller : Caller alpha} (hmem : caller ∈ crowd.callers) {result : Except Error alpha}
    (hdone : caller.call.phase = .done result) (hticket : caller.ticket = none) :
    exists yield, caller.yield = some yield ∧ yield.result = result := by
  have hcoherent := (h.fits_of_mem hmem).coherent
  unfold Caller.Coherent Caller.stage at hcoherent
  rw [hdone] at hcoherent
  simp only [Phase.stage, hticket] at hcoherent
  exact hcoherent.right

section Done

variable {setup : CacheSetup sigma alpha} {crowd : Crowd sigma alpha}
  {caller : Caller alpha}

theorem Orderly.error_source (h : crowd.Orderly) (hmem : caller ∈ crowd.callers)
    (hground : caller.Grounded setup) (hmatched : caller.Matched) {cause : Error}
    (hdone : caller.call.phase = .done (.error cause)) :
    crowd.FlightCame caller (.computed (.error cause)) ∧ standIn caller.found = none := by
  cases hticket : caller.ticket with
  | none =>
      rcases h.yield_of_done hmem hdone hticket with ⟨yield, hyield, hresult⟩
      have hflown := hmatched yield hyield
      rw [yield_eq_of_error hresult, hticket] at hflown
      cases hflown
  | some ticket =>
      rcases h.flightCame hmem hground hdone hticket with ⟨yield, hcame, hsettled⟩
      rcases settle_eq_error hsettled.symm with ⟨hresult, hnone⟩
      rw [yield_eq_of_error hresult] at hcame
      exact ⟨hcame, hnone⟩

theorem FlightCame.cases (hcrowd : forall caller, caller ∈ crowd.callers ->
      caller.Grounded setup ∧ caller.Matched)
    {yield : Yield alpha} (h : crowd.FlightCame caller yield) :
    (exists outcome, yield = .computed outcome) ∨
      exists entry now, yield = .rechecked entry now ∧ ¬ entry.Expired now := by
  rcases h with ⟨flight, leader, _, hleader, hleads, _, hyield⟩
  obtain ⟨hground, hmatched⟩ := hcrowd leader hleader
  have hallowed := hground.yield yield hyield
  have hflown := hmatched yield hyield
  have hticket : leader.ticket.isSome = true := by
    have hflight := hleads.right
    unfold Caller.flight? at hflight
    obtain ⟨ticket, hticket, _⟩ := Option.map_eq_some_iff.mp hflight
    rw [hticket]
    rfl
  rw [hticket] at hflown
  cases yield with
  | trusted entry => cases hflown
  | checked entry files => cases hflown
  | rechecked entry now =>
      exact Or.inr ⟨entry, now, rfl, CacheEntry.not_expired_of_isFreshAt hallowed.right⟩
  | computed outcome => exact Or.inl ⟨outcome, rfl⟩

theorem Orderly.value_source (h : crowd.Orderly)
    (hcrowd : forall caller, caller ∈ crowd.callers -> caller.Grounded setup ∧ caller.Matched)
    (htrust : setup.trust = false) (hmem : caller ∈ crowd.callers) {value : alpha}
    (hdone : caller.call.phase = .done (.ok value)) :
    crowd.FlightCame caller (.computed (.ok value)) ∨
      (exists entry now, crowd.AnswersFrom caller entry now ∧ ¬ entry.Expired now ∧
        entry.value = value) ∨
      (exists entry now cause, caller.found = some (entry, now) ∧ entry.Expired now ∧
        entry.InGrace now ∧ entry.value = value ∧ caller.call.options.forceFresh = false ∧
        crowd.FlightCame caller (.computed (.error cause))) := by
  obtain ⟨hground, hmatched⟩ := hcrowd caller hmem
  cases hticket : caller.ticket with
  | none =>
      rcases h.yield_of_done hmem hdone hticket with ⟨yield, hyield, hresult⟩
      have hflown := hmatched yield hyield
      have hallowed := hground.yield yield hyield
      rw [hticket] at hflown
      cases yield with
      | trusted entry =>
          rw [htrust] at hallowed
          cases hallowed
      | checked entry files =>
          rcases hallowed.right with ⟨now, hfound, hfresh⟩
          refine Or.inr (Or.inl ⟨entry, now, Or.inl ⟨hfound, files, hyield⟩,
            CacheEntry.not_expired_of_isFreshAt hfresh, ?_⟩)
          injection hresult
      | rechecked entry now => cases hflown
      | computed outcome => cases hflown
  | some ticket =>
      rcases h.flightCame hmem hground hdone hticket with ⟨yield, hcame, hsettled⟩
      rcases settle_eq_ok hsettled.symm with hresult | ⟨⟨cause, hfailed⟩, hstale⟩
      · rcases hcame.cases hcrowd with ⟨outcome, heq⟩ | ⟨entry, now, heq, hfresh⟩
        · subst heq
          cases hresult
          exact Or.inl hcame
        · subst heq
          refine Or.inr (Or.inl ⟨entry, now, Or.inr hcame, hfresh, ?_⟩)
          injection hresult
      · rw [yield_eq_of_error hfailed] at hcame
        rcases standIn_eq_some hstale with ⟨entry, now, hfound, hexpired, hgrace, hvalue⟩
        refine Or.inr (Or.inr ⟨entry, now, cause, hfound, hexpired, hgrace, hvalue, ?_, hcame⟩)
        -- a forced call finds nothing
        cases hforce : caller.call.options.forceFresh with
        | false => rfl
        | true =>
            rw [hground.unforced hforce] at hfound
            cases hfound

end Done

/-- On a cache where no call is under way, whatever calls begin and whatever comes in
between, every answer has a source, and a failure leaves no trace but the answers to the
calls of its flight. -/
theorem provenance_after [Disk sigma] (setup : CacheSetup sigma alpha)
    {scene : Scene sigma alpha} (hidle : scene.cache.Idle) (moves : Nat -> Move sigma alpha)
    (count : Nat) : ((opened scene).after setup moves count).Provenance setup := by
  have hopened := orderly_opened hidle
  have horderly := hopened.after setup moves count
  have hcrowd : forall caller, caller ∈ ((opened scene).after setup moves count).callers ->
      caller.Grounded setup ∧ caller.Matched := by
    have hnone : forall caller, caller ∈ (opened scene).callers ->
        caller.Grounded setup ∧ caller.Matched := by
      intro caller hmem
      cases hmem
    refine hopened.callers_after ?new ?advance ?deliver hnone moves count
    case new =>
      intro key options moment
      refine ⟨Caller.grounded_new setup key options moment, ?_⟩
      intro yield hyield
      cases hyield
    case advance =>
      intro now moment scene caller hcoherent h
      exact ⟨h.left.advance hcoherent now moment scene,
        h.right.advance hcoherent now moment scene⟩
    case deliver =>
      intro now moment outcome scene caller _ h
      exact ⟨h.left.deliver now moment outcome scene, h.right.deliver now moment outcome scene⟩
  refine ⟨?error, ?value, ?failure, ?given, ?released, ?early⟩
  case error =>
    intro caller cause hmem hdone
    obtain ⟨hground, hmatched⟩ := hcrowd caller hmem
    exact horderly.error_source hmem hground hmatched hdone
  case value =>
    intro caller value htrust hmem hdone
    exact horderly.value_source hcrowd htrust hmem hdone
  case failure =>
    intro index caller ticket primary now cause hcaller hphase
    exact play_failure setup hcaller hphase now cause
  case given =>
    intro index caller ticket now cause hcaller hphase hfound
    exact play_receive setup hcaller hphase hfound now
  case released =>
    intro caller result flight hmem hdone hflight key
    exact (horderly.fits_of_mem hmem).gone result flight (Caller.stage_of_done hdone) hflight key
  case early => exact hopened.early_after setup (early_opened scene) moves count

def staleScene : Scene FileSystem String :=
  { emptyScene with
    cache := { Cache.empty with entries := Table.empty.insert "file:a" ⟨"v", 0, some 5, 10⟩ } }

def failedCall : List (Move FileSystem String) :=
  let step := Move.advance 0 7
  [.start (.file ⟨"a"⟩) ⟨none, .zero, false⟩, step, step, step,
    .deliver 0 7 (.error (.task "f")), step]

theorem provenance_failedCall :
    staleScene.cache.Idle ∧
      ((opened staleScene).after ⟨false, none⟩ (script failedCall) 6).Provenance ⟨false, none⟩ ∧
      (((opened staleScene).after ⟨false, none⟩ (script failedCall) 6).callers.map fun caller =>
          (caller.log, caller.call.result?)) =
        [([.miss .expired, .computeFailed (Error.task "f").message, .servedStale],
          some (.ok "v"))] := by
  have hidle : staleScene.cache.Idle := ⟨fun _ => rfl, fun _ _ => rfl⟩
  exact ⟨hidle, provenance_after ⟨false, none⟩ hidle (script failedCall) 6, rfl⟩

end Crowd
end LessonPress

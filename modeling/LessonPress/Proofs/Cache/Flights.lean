import LessonPress.Proofs.Cache.Crowd

/-!
# Flights

## What a call needs of the flights, and what it leaves to the others

A flight that can be joined is led by a call that has not ended; only this call adds
the result, and it adds it once; the first call that is given the result makes room
for the next flight.
-/

namespace LessonPress

namespace Stage

variable {alpha : Type}

def holds? : Stage alpha -> Option Nat
  | searching _ => none
  | leading ticket => some ticket.flight
  | storing ticket _ => some ticket.flight
  | awaiting _ => none
  | done _ => none

def result? : Stage alpha -> Option (Except Error alpha)
  | done result => some result
  | _ => none

end Stage

theorem Call.phase_of_result? {alpha : Type} {call : Call alpha} {result : Except Error alpha}
    (h : call.result? = some result) : call.phase = .done result := by
  unfold Call.result? at h
  split at h
  · rename_i own hphase
    rw [hphase, Option.some.inj h]
  · cases h

theorem Call.result?_eq_stage {alpha : Type} (call : Call alpha) :
    call.result? = call.phase.stage.result? := by
  unfold Call.result?
  cases call.phase <;> rfl

namespace Caller

variable {alpha : Type}

def Coherent (caller : Caller alpha) : Prop :=
  match caller.stage with
  | .searching _ => caller.ticket = none ∧ caller.yield = none ∧ .joined ∉ caller.log
  | .leading ticket =>
      caller.ticket = some ticket ∧ caller.yield = none ∧ .joined ∉ caller.log
  | .storing ticket value =>
      caller.ticket = some ticket ∧ .joined ∉ caller.log ∧
        exists yield, caller.yield = some yield ∧ yield.result = .ok value
  | .awaiting ticket =>
      caller.ticket = some ticket ∧
        (.joined ∉ caller.log -> exists yield, caller.yield = some yield)
  | .done result =>
      match caller.ticket with
      | none =>
          .joined ∉ caller.log ∧ exists yield, caller.yield = some yield ∧ yield.result = result
      | some _ => .joined ∉ caller.log -> exists yield, caller.yield = some yield

/-- The flights and results of a cache are as a call needs them. -/
structure Fits (caller : Caller alpha) (cache : Cache alpha) : Prop where
  coherent : caller.Coherent
  counted : answers caller.log = caller.stage.answered
  finished : caller.finish.isSome = caller.stage.result?.isSome
  holds : forall flight, caller.stage.holds? = some flight ->
    cache.flights.find? caller.keyText = some flight ∧ cache.results.find? flight = none
  landed : forall flight yield, caller.Leads flight -> caller.yield = some yield ->
    caller.stage.holds? = none -> cache.results.find? flight = some yield.result
  settled : forall result ticket, caller.stage = .done result -> caller.ticket = some ticket ->
    exists outcome, cache.results.find? ticket.flight = some outcome ∧
      result = settle outcome ticket.stale
  gone : forall result flight, caller.stage = .done result -> caller.flight? = some flight ->
    forall key, cache.flights.find? key ≠ some flight

/-- A call that takes no step only needs its own flight to be left alone. -/
theorem Fits.frame {caller : Caller alpha} {cache next : Cache alpha} (h : caller.Fits cache)
    (hresults : forall flight outcome, caller.flight? = some flight ->
      cache.results.find? flight = some outcome -> next.results.find? flight = some outcome)
    (hholds : forall flight, caller.stage.holds? = some flight ->
      next.flights.find? caller.keyText = some flight ∧ next.results.find? flight = none)
    (hgone : forall flight, caller.flight? = some flight ->
      (forall key, cache.flights.find? key ≠ some flight) ->
      forall key, next.flights.find? key ≠ some flight) :
    caller.Fits next where
  coherent := h.coherent
  counted := h.counted
  finished := h.finished
  holds := hholds
  landed := by
    intro flight yield hleads hyield hstage
    exact hresults flight _ hleads.right (h.landed flight yield hleads hyield hstage)
  settled := by
    intro result ticket hstage hticket
    rcases h.settled result ticket hstage hticket with ⟨outcome, houtcome, hresult⟩
    refine ⟨outcome, hresults _ _ ?_ houtcome, hresult⟩
    unfold flight?
    rw [hticket]
    rfl
  gone := by
    intro result flight hstage hflight
    exact hgone flight hflight (h.gone result flight hstage hflight)

/-!
# Steps of one call
-/

variable {moment : Nat} {caller after : Caller alpha} {cache next : Cache alpha}
  {yield : Option (Yield alpha)} {events : List CacheEvent}

theorem Acts.coherent (hacts : caller.Acts moment cache yield events after next)
    (h : caller.Coherent) : after.Coherent := by
  have htransit := hacts.transit
  have hlog := hacts.log
  have hyield := hacts.yield
  have hticket := hacts.ticket
  unfold Coherent at h ⊢
  generalize caller.stage = stage at *
  generalize after.stage = stage' at *
  generalize hresult : yield.map Yield.result = result at htransit
  cases htransit with
  | search _ hnone =>
      have hnot := not_joined_of_answers hnone
      simp_all [Stage.ticket?]
  | serve _ _ hnot =>
      obtain ⟨own, hown, hvalue⟩ := Option.map_eq_some_iff.mp hresult
      simp_all [Stage.ticket?]
  | join _ => simp_all [Stage.ticket?]
  | lead _ _ _ _ => simp_all [Stage.ticket?]
  | leadServed _ _ _ _ =>
      obtain ⟨own, hown, hvalue⟩ := Option.map_eq_some_iff.mp hresult
      simp_all [Stage.ticket?]
  | work _ => simp_all [Stage.ticket?]
  | compute _ _ hnot =>
      obtain ⟨own, hown, hvalue⟩ := Option.map_eq_some_iff.mp hresult
      simp_all [Stage.ticket?]
  | fail _ _ _ _ hnot =>
      obtain ⟨own, hown, hvalue⟩ := Option.map_eq_some_iff.mp hresult
      simp_all [Stage.ticket?]
  | store _ hnone =>
      have hnot := not_joined_of_answers hnone
      simp_all [Stage.ticket?]
  | land _ _ _ hnone =>
      have hnot := not_joined_of_answers hnone
      obtain ⟨ticket, _, own, hown, _⟩ := h
      simp_all [Stage.ticket?]
  | receive _ _ hnone =>
      have hnot := not_joined_of_answers hnone
      simp_all [Stage.ticket?]
  | stay =>
      have hown : yield = none := Option.map_eq_none_iff.mp hresult
      have hkept : after.ticket = caller.ticket := by
        cases stage <;> simp_all [Stage.ticket?]
      rw [hkept, hlog, hyield, hown, List.append_nil, Option.none_or]
      exact h

theorem Acts.finished (hacts : caller.Acts moment cache yield events after next)
    (h : caller.finish.isSome = caller.stage.result?.isSome) :
    after.finish.isSome = after.stage.result?.isSome := by
  have htransit := hacts.transit
  rw [hacts.finish, Call.result?_eq_stage, Option.isSome_or, h, Option.isSome_map]
  change (caller.stage.result?.isSome || after.stage.result?.isSome) = after.stage.result?.isSome
  generalize caller.stage = stage at *
  generalize after.stage = stage' at *
  generalize yield.map Yield.result = result at htransit
  cases htransit with
  | stay => exact Bool.or_self _
  | _ => simp [Stage.result?]

theorem Acts.flight?_eq (hacts : caller.Acts moment cache yield events after next)
    (h : caller.Coherent) {flight : Nat} (hflight : caller.flight? = some flight) :
    after.flight? = some flight := by
  have htransit := hacts.transit
  unfold flight? at hflight ⊢
  rw [hacts.ticket]
  unfold Coherent at h
  generalize caller.stage = stage at *
  generalize after.stage = stage' at *
  generalize yield.map Yield.result = result at htransit
  cases htransit with
  | stay => cases stage <;> simp_all [Stage.ticket?]
  | _ => simp_all [Stage.ticket?]

theorem Acts.leads (hacts : caller.Acts moment cache yield events after next)
    (h : caller.Coherent) {flight : Nat} :
    after.Leads flight ->
      caller.Leads flight ∨
        (caller.ticket = none ∧ cache.flights.find? caller.keyText = none ∧
          flight = cache.nextFlight) := by
  intro hleads
  have htransit := hacts.transit
  unfold Leads flight? at hleads ⊢
  rw [hacts.ticket, hacts.log] at hleads
  unfold Coherent at h
  generalize caller.stage = stage at *
  generalize after.stage = stage' at *
  generalize yield.map Yield.result = result at htransit
  cases htransit with
  | stay => cases stage <;> simp_all [Stage.ticket?]
  | _ => simp_all [Stage.ticket?]

theorem Acts.holds (hacts : caller.Acts moment cache yield events after next)
    (h : caller.Fits cache)
    (hfresh : forall flight outcome, cache.results.find? flight = some outcome ->
      flight < cache.nextFlight) (flight : Nat) (hholds : after.stage.holds? = some flight) :
    next.flights.find? after.keyText = some flight ∧ next.results.find? flight = none := by
  have htransit := hacts.transit
  have hbefore := h.holds
  rw [hacts.keyText]
  generalize caller.stage = stage at *
  generalize after.stage = stage' at *
  generalize yield.map Yield.result = result at htransit
  cases htransit with
  | lead _ hflights hresults _ =>
      injection hholds with hflight
      rw [hflights, hresults, ← hflight]
      refine ⟨Table.find?_insert_self .., ?_⟩
      cases hnone : cache.results.find? cache.nextFlight with
      | none => rfl
      | some outcome => exact absurd (hfresh _ _ hnone) (Nat.lt_irrefl _)
  | work hsame =>
      rw [hsame.flights, hsame.results]
      exact hbefore flight hholds
  | compute hsame _ _ =>
      rw [hsame.flights, hsame.results]
      exact hbefore flight hholds
  | store hsame _ =>
      rw [hsame.flights, hsame.results]
      exact hbefore flight hholds
  | stay => exact hbefore flight hholds
  | _ => cases hholds

theorem Acts.landed (hacts : caller.Acts moment cache yield events after next)
    (h : caller.Fits cache) (flight : Nat) (own : Yield alpha) (hleads : after.Leads flight)
    (hown : after.yield = some own) (hholds : after.stage.holds? = none) :
    next.results.find? flight = some own.result := by
  have htransit := hacts.transit
  have hcoherent := h.coherent
  have hlanded := h.landed
  have hyield := hacts.yield
  have hlog := hacts.log
  have hticket := hacts.ticket
  have hflight := hleads.right
  unfold Coherent at hcoherent
  unfold flight? at hflight
  generalize caller.stage = stage at *
  generalize after.stage = stage' at *
  generalize hresult : yield.map Yield.result = result at htransit
  cases htransit with
  | search _ _ => simp_all [Stage.ticket?]
  | serve _ _ _ => simp_all [Stage.ticket?]
  | join _ => simp_all [Leads]
  | leadServed _ _ hresults _ =>
      obtain ⟨_, hyielded, hvalue⟩ := Option.map_eq_some_iff.mp hresult
      simp_all [Stage.ticket?]
  | fail _ hresults _ _ _ =>
      obtain ⟨_, hyielded, hvalue⟩ := Option.map_eq_some_iff.mp hresult
      simp_all [Stage.ticket?]
  | land _ hresults _ _ => simp_all [Stage.ticket?]
  | receive _ hnext _ =>
      have hsame : next.results = cache.results := by
        rw [hnext]
        unfold Call.release
        split <;> rfl
      rw [hsame]
      refine hlanded flight own ⟨?_, ?_⟩ ?_ rfl
      · intro hjoined
        exact hleads.left (hlog ▸ List.mem_append_left _ hjoined)
      · simp_all [flight?, Stage.ticket?]
      · simp_all
  | stay =>
      refine hlanded flight own ⟨?_, ?_⟩ ?_ hholds
      · intro hjoined
        exact hleads.left (hlog ▸ List.mem_append_left _ hjoined)
      · cases stage <;> simp_all [flight?, Stage.ticket?]
      · simp_all
  | _ => cases hholds

theorem Acts.settled (hacts : caller.Acts moment cache yield events after next)
    (h : caller.Fits cache) (given : Except Error alpha) (ticket : Ticket alpha)
    (hdone : after.stage = .done given) (hafter : after.ticket = some ticket) :
    exists outcome, next.results.find? ticket.flight = some outcome ∧
      given = settle outcome ticket.stale := by
  have htransit := hacts.transit
  have hcoherent := h.coherent
  have hsettled := h.settled
  have hticket := hacts.ticket
  unfold Coherent at hcoherent
  generalize caller.stage = stage at *
  generalize after.stage = stage' at *
  generalize yield.map Yield.result = result at htransit
  cases htransit with
  | serve _ _ _ => simp_all [Stage.ticket?]
  | receive hfound hnext hsilent =>
      rename_i own outcome
      refine ⟨outcome, ?_, ?_⟩
      · have hsame : next.results = cache.results := by
          rw [hnext]
          unfold Call.release
          split <;> rfl
        simp_all [Stage.ticket?]
      · simp_all [Stage.ticket?]
  | stay =>
      subst hdone
      exact hsettled given ticket rfl (by simpa [hticket, Stage.ticket?] using hafter)
  | _ => cases hdone

theorem Acts.gone (hacts : caller.Acts moment cache yield events after next)
    (h : caller.Fits cache)
    (hkeyed : forall flight key, caller.flight? = some flight ->
      cache.flights.find? key = some flight -> key = caller.keyText)
    (given : Except Error alpha) (flight : Nat) (hdone : after.stage = .done given)
    (hflight : after.flight? = some flight) (key : String) :
    next.flights.find? key ≠ some flight := by
  have htransit := hacts.transit
  have hcoherent := h.coherent
  have hgone := h.gone
  have hticket := hacts.ticket
  unfold Coherent at hcoherent
  generalize caller.stage = stage at *
  generalize after.stage = stage' at *
  generalize yield.map Yield.result = result at htransit
  cases htransit with
  | serve _ _ _ => simp_all [flight?, Stage.ticket?]
  | receive hfound hnext hsilent =>
      rename_i ticket outcome
      have hown : caller.flight? = some ticket.flight := by
        simp_all [flight?]
      have hsame : flight = ticket.flight := by
        simp_all [flight?, Stage.ticket?]
      rw [hnext, hsame]
      unfold Call.release
      split
      · intro hkey
        by_cases heq : key = caller.keyText
        · rw [heq, Table.find?_erase_self] at hkey
          cases hkey
        · rw [Table.find?_erase_of_ne _ heq] at hkey
          exact heq (hkeyed _ _ hown hkey)
      · rename_i hother
        intro hkey
        exact hother (hkeyed _ _ hown hkey ▸ hkey)
  | stay =>
      subst hdone
      exact hgone given flight rfl (by simpa [flight?, hticket, Stage.ticket?] using hflight) key
  | _ => cases hdone

theorem Acts.fits (hacts : caller.Acts moment cache yield events after next)
    (h : caller.Fits cache)
    (hfresh : forall flight outcome, cache.results.find? flight = some outcome ->
      flight < cache.nextFlight)
    (hkeyed : forall flight key, caller.flight? = some flight ->
      cache.flights.find? key = some flight -> key = caller.keyText) : after.Fits next where
  coherent := hacts.coherent h.coherent
  counted := by
    rw [hacts.log, answers_append, h.counted]
    exact hacts.transit.answers_eq
  finished := hacts.finished h.finished
  holds := hacts.holds h hfresh
  landed := hacts.landed h
  settled := hacts.settled h
  gone := hacts.gone h hkeyed

structure Leaves (caller after : Caller alpha) (cache next : Cache alpha) : Prop where
  grows : cache.nextFlight ≤ next.nextFlight
  kept : forall flight outcome, cache.results.find? flight = some outcome ->
    next.results.find? flight = some outcome
  added : forall flight outcome, next.results.find? flight = some outcome ->
    cache.results.find? flight = some outcome ∨
      (after.Leads flight ∧ flight < next.nextFlight)
  taken : forall key flight, next.flights.find? key = some flight ->
    cache.flights.find? key = some flight ∨
      (flight = cache.nextFlight ∧ key = caller.keyText ∧ after.Leads flight ∧
        after.finish = none)
  released : forall key flight, cache.flights.find? key = some flight ->
    next.flights.find? key = some flight ∨
      exists outcome, cache.results.find? flight = some outcome

theorem Leaves.of_same {caller after : Caller alpha} {cache next : Cache alpha}
    (h : cache.SameFlights next) : caller.Leaves after cache next where
  grows := Nat.le_of_eq h.nextFlight.symm
  kept := by
    intro flight outcome hfound
    rw [h.results]
    exact hfound
  added := by
    intro flight outcome hfound
    rw [h.results] at hfound
    exact Or.inl hfound
  taken := by
    intro key flight hfound
    rw [h.flights] at hfound
    exact Or.inl hfound
  released := by
    intro key flight hfound
    rw [h.flights]
    exact Or.inl hfound

theorem Leaves.of_taken {caller after : Caller alpha} {cache next : Cache alpha}
    (hfree : cache.flights.find? caller.keyText = none)
    (hflights : next.flights = cache.flights.insert caller.keyText cache.nextFlight)
    (hgrows : next.nextFlight = cache.nextFlight + 1)
    (hleads : after.Leads cache.nextFlight) (hfinish : after.finish = none)
    (hresults : next.results = cache.results ∨
      exists outcome, next.results = cache.results.insert cache.nextFlight outcome)
    (hfresh : forall flight outcome, cache.results.find? flight = some outcome ->
      flight < cache.nextFlight) : caller.Leaves after cache next where
  grows := by omega
  kept := by
    intro flight outcome hfound
    rcases hresults with hsame | ⟨result, hinsert⟩
    · rw [hsame]
      exact hfound
    · rw [hinsert, Table.find?_insert_of_ne _ _ (Nat.ne_of_lt (hfresh _ _ hfound))]
      exact hfound
  added := by
    intro flight outcome hfound
    rcases hresults with hsame | ⟨result, hinsert⟩
    · exact Or.inl (hsame ▸ hfound)
    · by_cases hflight : flight = cache.nextFlight
      · subst hflight
        exact Or.inr ⟨hleads, by omega⟩
      · rw [hinsert, Table.find?_insert_of_ne _ _ hflight] at hfound
        exact Or.inl hfound
  taken := by
    intro key flight hfound
    rw [hflights] at hfound
    by_cases hkey : key = caller.keyText
    · subst hkey
      rw [Table.find?_insert_self] at hfound
      injection hfound with hfound
      subst hfound
      exact Or.inr ⟨rfl, rfl, hleads, hfinish⟩
    · rw [Table.find?_insert_of_ne _ _ hkey] at hfound
      exact Or.inl hfound
  released := by
    intro key flight hfound
    have hkey : key ≠ caller.keyText := by
      intro heq
      rw [heq, hfree] at hfound
      cases hfound
    rw [hflights, Table.find?_insert_of_ne _ _ hkey]
    exact Or.inl hfound

theorem Leaves.of_landed {caller after : Caller alpha} {cache next : Cache alpha} {flight : Nat}
    {outcome : Except Error alpha} (hflights : next.flights = cache.flights)
    (hresults : next.results = cache.results.insert flight outcome)
    (hgrows : next.nextFlight = cache.nextFlight) (hleads : after.Leads flight)
    (hbound : flight < cache.nextFlight) (hfree : cache.results.find? flight = none) :
    caller.Leaves after cache next where
  grows := Nat.le_of_eq hgrows.symm
  kept := by
    intro other result hfound
    have hne : other ≠ flight := by
      intro heq
      rw [heq, hfree] at hfound
      cases hfound
    rw [hresults, Table.find?_insert_of_ne _ _ hne]
    exact hfound
  added := by
    intro other result hfound
    by_cases hsame : other = flight
    · subst hsame
      exact Or.inr ⟨hleads, by omega⟩
    · rw [hresults, Table.find?_insert_of_ne _ _ hsame] at hfound
      exact Or.inl hfound
  taken := by
    intro key other hfound
    rw [hflights] at hfound
    exact Or.inl hfound
  released := by
    intro key other hfound
    rw [hflights]
    exact Or.inl hfound

theorem Leaves.of_released {caller after : Caller alpha} {cache : Cache alpha} {key : String}
    {flight : Nat} {outcome : Except Error alpha}
    (hfound : cache.results.find? flight = some outcome) :
    caller.Leaves after cache (Call.release cache key flight) := by
  unfold Call.release
  split
  · rename_i hheld
    refine ⟨Nat.le_refl _, fun _ _ h => h, fun _ _ h => Or.inl h, ?_, ?_⟩
    · intro other number h
      by_cases hkey : other = key
      · rw [hkey, Table.find?_erase_self] at h
        cases h
      · rw [Table.find?_erase_of_ne _ hkey] at h
        exact Or.inl h
    · intro other number h
      by_cases hkey : other = key
      · rw [hkey, hheld] at h
        injection h with h
        exact Or.inr ⟨outcome, h ▸ hfound⟩
      · rw [Table.find?_erase_of_ne _ hkey]
        exact Or.inl h
  · exact .of_same (.refl _)

theorem Acts.leaves (hacts : caller.Acts moment cache yield events after next)
    (h : caller.Fits cache)
    (hbound : forall flight, caller.flight? = some flight -> flight < cache.nextFlight)
    (hfresh : forall flight outcome, cache.results.find? flight = some outcome ->
      flight < cache.nextFlight) : caller.Leaves after cache next := by
  have htransit := hacts.transit
  have hcoherent := h.coherent
  have hholds := h.holds
  have hfinished := hacts.finished h.finished
  have hlog := hacts.log
  have hticket := hacts.ticket
  unfold Coherent at hcoherent
  unfold flight? at hbound
  generalize caller.stage = stage at *
  generalize after.stage = stage' at *
  generalize yield.map Yield.result = result at htransit
  cases htransit with
  | search hsame _ => exact .of_same hsame
  | serve hsame _ _ => exact .of_same hsame
  | join _ => exact .of_same (.refl _)
  | lead hfree hflights hresults hgrows =>
      refine .of_taken hfree hflights hgrows ?_ ?_ (Or.inl hresults) hfresh
      · simp_all [Leads, flight?, Stage.ticket?]
      · simpa [Stage.result?] using hfinished
  | leadServed hfree hflights hresults hgrows =>
      refine .of_taken hfree hflights hgrows ?_ ?_ (Or.inr ⟨_, hresults⟩) hfresh
      · simp_all [Leads, flight?, Stage.ticket?]
      · simpa [Stage.result?] using hfinished
  | work hsame => exact .of_same hsame
  | compute hsame _ _ => exact .of_same hsame
  | fail hflights hresults hgrows hone hnot =>
      rename_i ticket cause
      refine .of_landed hflights hresults hgrows ?_ ?_ (hholds _ rfl).right
      · simp_all [Leads, flight?, Stage.ticket?]
      · exact hbound ticket.flight (by rw [hcoherent.left]; rfl)
  | store hsame _ => exact .of_same hsame
  | land hflights hresults hgrows hnone =>
      rename_i ticket value
      have hnot := not_joined_of_answers hnone
      refine .of_landed hflights hresults hgrows ?_ ?_ (hholds _ rfl).right
      · simp_all [Leads, flight?, Stage.ticket?]
      · exact hbound ticket.flight (by rw [hcoherent.left]; rfl)
  | receive hfound hnext _ =>
      rw [hnext]
      exact .of_released hfound
  | stay => exact .of_same (.refl _)

theorem Acts.flight?_cases (hacts : caller.Acts moment cache yield events after next)
    (h : caller.Fits cache) {flight : Nat} (hflight : after.flight? = some flight) :
    caller.flight? = some flight ∨ cache.flights.find? caller.keyText = some flight ∨
      (flight < next.nextFlight ∧ after.Leads flight ∧ after.finish = none) := by
  have htransit := hacts.transit
  have hcoherent := h.coherent
  have hfinished := hacts.finished h.finished
  have hlog := hacts.log
  have hticket := hacts.ticket
  unfold Coherent at hcoherent
  unfold flight? at hflight ⊢
  generalize caller.stage = stage at *
  generalize after.stage = stage' at *
  generalize yield.map Yield.result = result at htransit
  cases htransit with
  | join hjoined =>
      rename_i stale joined
      have hown : flight = joined := by simpa [hticket, Stage.ticket?] using hflight.symm
      exact Or.inr (Or.inl (hown ▸ hjoined))
  | lead _ _ _ hgrows =>
      have hown : flight = cache.nextFlight := by
        simpa [hticket, Stage.ticket?] using hflight.symm
      refine Or.inr (Or.inr ⟨by omega, ?_, by simpa [Stage.result?] using hfinished⟩)
      simp_all [Leads, flight?, Stage.ticket?]
  | leadServed _ _ _ hgrows =>
      have hown : flight = cache.nextFlight := by
        simpa [hticket, Stage.ticket?] using hflight.symm
      refine Or.inr (Or.inr ⟨by omega, ?_, by simpa [Stage.result?] using hfinished⟩)
      simp_all [Leads, flight?, Stage.ticket?]
  | stay => cases stage <;> simp_all [Stage.ticket?]
  | _ => simp_all [Stage.ticket?]

theorem Acts.leads_of_leads (hacts : caller.Acts moment cache yield events after next)
    (h : caller.Coherent) {flight : Nat} (hleads : caller.Leads flight) :
    after.Leads flight := by
  refine ⟨?_, hacts.flight?_eq h hleads.right⟩
  have htransit := hacts.transit
  have hnot := hleads.left
  have hflight := hleads.right
  rw [hacts.log]
  unfold Coherent at h
  unfold flight? at hflight
  generalize caller.stage = stage at *
  generalize after.stage = stage' at *
  generalize yield.map Yield.result = result at htransit
  cases htransit with
  | store _ hnone => simp [hnot, not_joined_of_answers hnone]
  | land _ _ _ hnone => simp [hnot, not_joined_of_answers hnone]
  | receive _ _ hnone => simp [hnot, not_joined_of_answers hnone]
  | _ => simp_all

theorem Fits.leads_of_holds (h : caller.Fits cache) {flight : Nat}
    (hholds : caller.stage.holds? = some flight) : caller.Leads flight := by
  have hcoherent := h.coherent
  unfold Coherent at hcoherent
  generalize caller.stage = stage at *
  cases stage with
  | leading ticket => simp_all [Leads, flight?, Stage.holds?]
  | storing ticket value => simp_all [Leads, flight?, Stage.holds?]
  | _ => cases hholds

theorem Fits.finish_eq_none (h : caller.Fits cache) {flight : Nat} {key : String}
    (hleads : caller.Leads flight) (hkey : cache.flights.find? key = some flight) :
    caller.finish = none := by
  have hfinished := h.finished
  cases hstage : caller.stage with
  | done result => exact absurd hkey (h.gone result flight hstage hleads.right key)
  | _ =>
      rw [hstage] at hfinished
      exact Option.not_isSome_iff_eq_none.mp (by simp [hfinished, Stage.result?])

end Caller

end LessonPress

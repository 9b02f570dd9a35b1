import LessonPress.Proofs.Cache.Lookup

/-!
# Single flight

## One computation for each key, and one answer for each call

Calls of one key share their flight.  Whoever joins is given what the leader came to,
every call gives one answer, and no flight is left behind.
-/

namespace LessonPress
namespace Caller

variable {alpha : Type}

def Works (caller : Caller alpha) : Prop :=
  exists flight, caller.stage.holds? = some flight

/-- A leader whose flight has a result has come to this result itself. -/
theorem Fits.yield_of_landed {leader : Caller alpha} {cache : Cache alpha} {flight : Nat}
    {outcome : Except Error alpha} (h : leader.Fits cache) (hleads : leader.Leads flight)
    (hfound : cache.results.find? flight = some outcome) :
    exists yield, leader.yield = some yield ∧ yield.result = outcome := by
  have hends : leader.stage.holds? = none ∧ exists yield, leader.yield = some yield := by
    have hcoherent := h.coherent
    have hholds := h.holds
    have hflight := hleads.right
    unfold Coherent at hcoherent
    unfold flight? at hflight
    generalize leader.stage = stage at *
    cases stage with
    | searching stale =>
        rw [hcoherent.left] at hflight
        cases hflight
    | leading ticket =>
        rw [hcoherent.left] at hflight
        cases hflight
        rw [(hholds _ rfl).right] at hfound
        cases hfound
    | storing ticket value =>
        rw [hcoherent.left] at hflight
        cases hflight
        rw [(hholds _ rfl).right] at hfound
        cases hfound
    | awaiting ticket => exact ⟨rfl, hcoherent.right hleads.left⟩
    | done result =>
        dsimp only at hcoherent
        cases hticket : leader.ticket with
        | none =>
            rw [hticket] at hflight
            cases hflight
        | some ticket =>
            rw [hticket] at hcoherent
            exact ⟨rfl, hcoherent hleads.left⟩
  rcases hends with ⟨hholds, yield, hyield⟩
  refine ⟨yield, hyield, ?_⟩
  have hlanded := h.landed flight yield hleads hyield hholds
  rw [hfound] at hlanded
  exact (Option.some.inj hlanded).symm

end Caller

namespace Crowd

variable {sigma alpha : Type}

/-- What the flight of a call came to: the leader of the flight, which is perhaps the
call itself, has come to it. -/
def FlightCame (crowd : Crowd sigma alpha) (caller : Caller alpha) (yield : Yield alpha) :
    Prop :=
  exists flight leader, caller.flight? = some flight ∧ leader ∈ crowd.callers ∧
    leader.Leads flight ∧ leader.keyText = caller.keyText ∧ leader.yield = some yield

/-- A call that has ended with a place in a flight was given what the flight came to, or
its own expired value in place of an error. -/
theorem Orderly.flightCame {setup : CacheSetup sigma alpha}
    {crowd : Crowd sigma alpha} (h : crowd.Orderly) {caller : Caller alpha}
    (hmem : caller ∈ crowd.callers) (hground : caller.Grounded setup)
    {result : Except Error alpha} {ticket : Ticket alpha}
    (hdone : caller.call.phase = .done result) (hticket : caller.ticket = some ticket) :
    exists yield, crowd.FlightCame caller yield ∧
      result = settle yield.result (standIn caller.found) := by
  obtain ⟨index, hindex⟩ := List.mem_iff_getElem?.mp hmem
  have hstage := Caller.stage_of_done hdone
  have hflight : caller.flight? = some ticket.flight := by
    unfold Caller.flight?
    rw [hticket]
    rfl
  rcases (h.fits index caller hindex).settled result ticket hstage hticket with
    ⟨outcome, hfound, hresult⟩
  rcases (h.led index caller ticket.flight hindex hflight).right with
    ⟨place, leader, hplace, hleads, hkey, _⟩
  rcases (h.fits place leader hplace).yield_of_landed hleads hfound with
    ⟨yield, hyield, houtcome⟩
  refine ⟨yield, ⟨ticket.flight, leader, hflight, List.mem_of_getElem? hplace, hleads, hkey,
    hyield⟩, ?_⟩
  rw [houtcome, ← hground.ticket ticket hticket]
  exact hresult

structure SingleFlight (crowd : Crowd sigma alpha) : Prop where
  alone : forall (first second : Nat) (caller other : Caller alpha),
    crowd.callers[first]? = some caller -> crowd.callers[second]? = some other ->
    caller.Works -> other.Works -> caller.keyText = other.keyText -> first = second
  shared : forall caller result, caller ∈ crowd.callers -> .joined ∈ caller.log ->
    caller.call.phase = .done result ->
    exists yield, crowd.FlightCame caller yield ∧
      result = settle yield.result (standIn caller.found)
  once : forall caller result, caller ∈ crowd.callers -> caller.call.phase = .done result ->
    answers caller.log = 1
  cleared : forall key,
    (forall caller, caller ∈ crowd.callers -> caller.keyText = key ->
      exists result, caller.call.phase = .done result) ->
    crowd.scene.cache.flights.find? key = none

theorem Orderly.works_alone {crowd : Crowd sigma alpha} (h : crowd.Orderly)
    (first second : Nat) (caller other : Caller alpha)
    (hcaller : crowd.callers[first]? = some caller)
    (hother : crowd.callers[second]? = some other) (hworks : caller.Works)
    (hotherWorks : other.Works) (hkey : caller.keyText = other.keyText) : first = second := by
  rcases hworks with ⟨flight, hholds⟩
  rcases hotherWorks with ⟨flight', hholds'⟩
  have hfits := h.fits first caller hcaller
  have hfits' := h.fits second other hother
  -- both hold the slot of the key, so they lead the same flight
  have hslot := (hfits.holds flight hholds).left
  have hslot' := (hfits'.holds flight' hholds').left
  rw [hkey, hslot'] at hslot
  injection hslot with hsame
  subst hsame
  exact h.unique first second caller other flight' hcaller hother
    (hfits.leads_of_holds hholds) (hfits'.leads_of_holds hholds')

theorem Orderly.cleared {crowd : Crowd sigma alpha} (h : crowd.Orderly) (key : String)
    (hdone : forall caller, caller ∈ crowd.callers -> caller.keyText = key ->
      exists result, caller.call.phase = .done result) :
    crowd.scene.cache.flights.find? key = none := by
  cases hslot : crowd.scene.cache.flights.find? key with
  | none => rfl
  | some flight =>
      rcases h.slot key flight hslot with ⟨place, leader, hplace, hleads, hkey, _⟩
      rcases hdone leader (List.mem_of_getElem? hplace) hkey with ⟨result, hphase⟩
      have hstage := Caller.stage_of_done hphase
      exact absurd hslot ((h.fits place leader hplace).gone result flight hstage hleads.right key)

/-- Whatever calls begin on a cache where no call is under way, and in whatever order
their steps come, the calls of each key share one flight at a time. -/
theorem singleFlight_after [Disk sigma] (setup : CacheSetup sigma alpha)
    {scene : Scene sigma alpha} (hidle : scene.cache.Idle) (moves : Nat -> Move sigma alpha)
    (count : Nat) : ((opened scene).after setup moves count).SingleFlight := by
  have horderly := (orderly_opened hidle).after setup moves count
  have hgrounded : forall caller,
      caller ∈ ((opened scene).after setup moves count).callers -> caller.Grounded setup :=
    (orderly_opened hidle).grounded_after (by intro caller hmem; cases hmem) moves count
  refine ⟨horderly.works_alone, ?shared, ?once, horderly.cleared⟩
  case shared =>
    intro caller result hmem hjoined hdone
    have hcoherent := (horderly.fits_of_mem hmem).coherent
    have hticket : exists ticket, caller.ticket = some ticket := by
      unfold Caller.Coherent Caller.stage at hcoherent
      rw [hdone] at hcoherent
      cases hnone : caller.ticket with
      | none =>
          simp only [Phase.stage, hnone] at hcoherent
          exact absurd hjoined hcoherent.left
      | some ticket => exact ⟨ticket, rfl⟩
    rcases hticket with ⟨ticket, hticket⟩
    exact horderly.flightCame hmem (hgrounded caller hmem) hdone hticket
  case once =>
    intro caller result hmem hdone
    rw [(horderly.fits_of_mem hmem).counted, Caller.stage_of_done hdone]
    rfl

def twoCalls : List (Move FileSystem String) :=
  let key := CacheKey.file ⟨"a"⟩
  let options : CallOptions := ⟨none, .zero, false⟩
  let lead := Move.advance 0 0
  let follow := Move.advance 1 0
  [.start key options, .start key options, lead, lead, lead, follow, follow, follow, lead,
    follow, lead, .deliver 0 0 (.ok ⟨"v", []⟩), lead, lead, follow, lead]

def emptyScene : Scene FileSystem String :=
  ⟨.empty, FileSystem.new [] ⟨0, 0⟩, []⟩

theorem singleFlight_twoCalls :
    emptyScene.cache.Idle ∧
      ((opened emptyScene).after ⟨false, none⟩ (script twoCalls) 16).SingleFlight ∧
      (((opened emptyScene).after ⟨false, none⟩ (script twoCalls) 16).callers.map fun caller =>
          (caller.log, caller.call.result?)) =
        [([.miss .notCached, .computed, .stored 0], some (.ok "v")),
          ([.miss .notCached, .joined], some (.ok "v"))] :=
  ⟨Cache.idle_empty, singleFlight_after ⟨false, none⟩ Cache.idle_empty (script twoCalls) 16, rfl⟩

end Crowd
end LessonPress

import LessonPress.Cache.Call

/-!
# Stages of a call

## What the flights of a cache see of a call

Most of what a call does is of no concern to the other calls of its key.  A stage
keeps of a phase the place in a flight, the value that is being stored and the
result.  Every step of a call is one of a few transits between stages, and a
transit says all that the step does to the flights, to the results of flights and
to the number of answers in the log.
-/

namespace LessonPress

namespace CacheEvent

def isAnswer : CacheEvent -> Bool
  | hit => true
  | trustedHit => true
  | joined => true
  | computed => true
  | computeFailed _ => true
  | _ => false

end CacheEvent

def answers (events : List CacheEvent) : Nat :=
  events.countP CacheEvent.isAnswer

theorem answers_append (events more : List CacheEvent) :
    answers (events ++ more) = answers events + answers more :=
  List.countP_append

theorem not_mem_of_answers {events : List CacheEvent} (h : answers events = 0)
    {event : CacheEvent} (hevent : event.isAnswer = true) : event ∉ events := by
  intro hmem
  exact (List.countP_eq_zero.mp h) event hmem hevent

theorem not_joined_of_answers {events : List CacheEvent} (h : answers events = 0) :
    .joined ∉ events :=
  not_mem_of_answers h rfl

theorem two_le_answers {events : List CacheEvent} {event other : CacheEvent}
    (hne : event ≠ other) (hevent : event.isAnswer = true) (hother : other.isAnswer = true)
    (hmem : event ∈ events) (hothermem : other ∈ events) : 2 ≤ answers events := by
  have hpos : forall {event : CacheEvent} {events : List CacheEvent},
      event.isAnswer = true -> event ∈ events -> 0 < answers events := by
    intro event events hevent hmem
    exact List.countP_pos_iff.mpr ⟨event, hmem, hevent⟩
  induction events with
  | nil => cases hmem
  | cons first rest ih =>
      have hcount : answers (first :: rest) = answers rest + if first.isAnswer then 1 else 0 :=
        List.countP_cons
      rcases List.mem_cons.mp hmem with hfirst | hrest
      · rcases List.mem_cons.mp hothermem with hsame | hotherRest
        · exact absurd (hfirst.trans hsame.symm) hne
        · have hone := hpos hother hotherRest
          rw [hcount, ← hfirst, if_pos hevent]
          omega
      · rcases List.mem_cons.mp hothermem with hfirst | hotherRest
        · have hone := hpos hevent hrest
          rw [hcount, ← hfirst, if_pos hother]
          omega
        · have htwo := ih hrest hotherRest
          omega

inductive Stage (alpha : Type) where
  | searching (stale : Option alpha)
  | leading (ticket : Ticket alpha)
  | storing (ticket : Ticket alpha) (value : alpha)
  | awaiting (ticket : Ticket alpha)
  | done (result : Except Error alpha)

namespace Stage

variable {alpha : Type}

def answered : Stage alpha -> Nat
  | searching _ => 0
  | leading _ => 0
  | storing _ _ => 1
  | awaiting _ => 1
  | done _ => 1

def ticket? : Stage alpha -> Option (Ticket alpha)
  | searching _ => none
  | leading ticket => some ticket
  | storing ticket _ => some ticket
  | awaiting ticket => some ticket
  | done _ => none

end Stage

namespace Phase

variable {alpha : Type}

def stage : Phase alpha -> Stage alpha
  | opening => .searching none
  | loading => .searching none
  | restoring _ => .searching none
  | scanning _ _ _ _ => .searching none
  | hashing _ _ _ _ _ => .searching none
  | missed stale _ => .searching stale
  | capturing ticket => .leading ticket
  | reading ticket _ => .leading ticket
  | computing ticket _ => .leading ticket
  | saving ticket persisted => .storing ticket persisted.entry.value
  | saved ticket value _ => .storing ticket value
  | removing ticket value _ => .storing ticket value
  | removed ticket value _ _ => .storing ticket value
  | waiting ticket => .awaiting ticket
  | done result => .done result

end Phase

namespace Cache

variable {alpha : Type}

structure SameFlights (cache next : Cache alpha) : Prop where
  flights : next.flights = cache.flights
  results : next.results = cache.results
  nextFlight : next.nextFlight = cache.nextFlight

theorem SameFlights.refl (cache : Cache alpha) : cache.SameFlights cache :=
  ⟨rfl, rfl, rfl⟩

structure SameContent (cache next : Cache alpha) : Prop where
  entries : next.entries = cache.entries
  records : next.records = cache.records
  currentKeys : next.currentKeys = cache.currentKeys

theorem SameContent.refl (cache : Cache alpha) : cache.SameContent cache :=
  ⟨rfl, rfl, rfl⟩

end Cache

namespace Scene

variable {sigma alpha : Type}

def since (scene next : Scene sigma alpha) : List CacheEvent :=
  (next.events.drop scene.events.length).map (·.2)

@[simp] theorem since_self (scene : Scene sigma alpha) : scene.since scene = [] := by
  simp [since]

theorem since_emit {scene next : Scene sigma alpha}
    (h : scene.events.length ≤ next.events.length) (key : String) (event : CacheEvent) :
    scene.since (next.emit key event) = scene.since next ++ [event] := by
  unfold since emit
  rw [List.drop_append_of_le_length h, List.map_append]
  rfl

@[simp] theorem since_emit_self (scene : Scene sigma alpha) (key : String) (event : CacheEvent) :
    scene.since (scene.emit key event) = [event] := by
  rw [since_emit (Nat.le_refl _), since_self]
  rfl

@[simp] theorem since_mk (scene : Scene sigma alpha) (cache : Cache alpha) (disk : sigma) :
    scene.since ⟨cache, disk, scene.events⟩ = [] := by
  simp [since]

@[simp] theorem since_emit_mk (scene : Scene sigma alpha) (cache : Cache alpha) (disk : sigma)
    (key : String) (event : CacheEvent) :
    scene.since (emit ⟨cache, disk, scene.events⟩ key event) = [event] := by
  have hlength : scene.events.length ≤ (mk cache disk scene.events).events.length :=
    Nat.le_refl _
  rw [since_emit hlength, since_mk]
  rfl

end Scene

/-- What a call is given when its flight ends: the result of the flight, or its own
expired value in place of an error. -/
def settle {alpha : Type} (result : Except Error alpha) (stale : Option alpha) :
    Except Error alpha :=
  match result, stale with
  | .error _, some value => .ok value
  | result, _ => result

/-!
# Transits
-/

/-- The steps of a call of the given key, as its flight sees them: the stage and the
cache before, the result that the step comes to by itself, the events, the stage and
the cache after. -/
inductive Transit {alpha : Type} (key : String) :
    Stage alpha -> Cache alpha -> Option (Except Error alpha) -> List CacheEvent ->
      Stage alpha -> Cache alpha -> Prop where
  | search {cache next : Cache alpha} {before after : Option alpha} {events : List CacheEvent} :
      cache.SameFlights next -> answers events = 0 ->
      Transit key (.searching before) cache none events (.searching after) next
  | serve {cache next : Cache alpha} {before : Option alpha} {value : alpha}
      {events : List CacheEvent} :
      cache.SameFlights next -> answers events = 1 -> .joined ∉ events ->
      Transit key (.searching before) cache (some (.ok value)) events (.done (.ok value)) next
  | join {cache : Cache alpha} {stale : Option alpha} {flight : Nat} :
      cache.flights.find? key = some flight ->
      Transit key (.searching stale) cache none [.joined] (.awaiting ⟨flight, stale⟩) cache
  | lead {cache next : Cache alpha} {stale : Option alpha} :
      cache.flights.find? key = none ->
      next.flights = cache.flights.insert key cache.nextFlight ->
      next.results = cache.results ->
      next.nextFlight = cache.nextFlight + 1 ->
      Transit key (.searching stale) cache none [] (.leading ⟨cache.nextFlight, stale⟩) next
  | leadServed {cache next : Cache alpha} {stale : Option alpha} {value : alpha} :
      cache.flights.find? key = none ->
      next.flights = cache.flights.insert key cache.nextFlight ->
      next.results = cache.results.insert cache.nextFlight (.ok value) ->
      next.nextFlight = cache.nextFlight + 1 ->
      Transit key (.searching stale) cache (some (.ok value)) [.hit]
        (.awaiting ⟨cache.nextFlight, stale⟩) next
  | work {cache next : Cache alpha} {ticket : Ticket alpha} :
      cache.SameFlights next ->
      Transit key (.leading ticket) cache none [] (.leading ticket) next
  | compute {cache next : Cache alpha} {ticket : Ticket alpha} {value : alpha}
      {events : List CacheEvent} :
      cache.SameFlights next -> answers events = 1 -> .joined ∉ events ->
      Transit key (.leading ticket) cache (some (.ok value)) events (.storing ticket value) next
  | fail {cache next : Cache alpha} {ticket : Ticket alpha} {cause : Error}
      {events : List CacheEvent} :
      next.flights = cache.flights ->
      next.results = cache.results.insert ticket.flight (.error cause) ->
      next.nextFlight = cache.nextFlight ->
      answers events = 1 -> .joined ∉ events ->
      Transit key (.leading ticket) cache (some (.error cause)) events (.awaiting ticket) next
  | store {cache next : Cache alpha} {ticket : Ticket alpha} {value : alpha}
      {events : List CacheEvent} :
      cache.SameFlights next -> answers events = 0 ->
      Transit key (.storing ticket value) cache none events (.storing ticket value) next
  | land {cache next : Cache alpha} {ticket : Ticket alpha} {value : alpha}
      {events : List CacheEvent} :
      next.flights = cache.flights ->
      next.results = cache.results.insert ticket.flight (.ok value) ->
      next.nextFlight = cache.nextFlight ->
      answers events = 0 ->
      Transit key (.storing ticket value) cache none events (.awaiting ticket) next
  | receive {cache next : Cache alpha} {ticket : Ticket alpha} {result : Except Error alpha}
      {events : List CacheEvent} :
      cache.results.find? ticket.flight = some result ->
      next = Call.release cache key ticket.flight ->
      answers events = 0 ->
      Transit key (.awaiting ticket) cache none events
        (.done (settle result ticket.stale)) next
  | stay {cache : Cache alpha} {stage : Stage alpha} :
      Transit key stage cache none [] stage cache

namespace Transit

variable {alpha : Type} {key : String} {stage after : Stage alpha} {cache next : Cache alpha}
  {result : Option (Except Error alpha)} {events : List CacheEvent}

theorem answers_eq (h : Transit key stage cache result events after next) :
    stage.answered + answers events = after.answered := by
  cases h with
  | search _ hnone => rw [hnone]; rfl
  | serve _ hone _ => rw [hone]; rfl
  | join _ => rfl
  | lead _ _ _ _ => rfl
  | leadServed _ _ _ _ => rfl
  | work _ => rfl
  | compute _ hone _ => rw [hone]; rfl
  | fail _ _ _ hone _ => rw [hone]; rfl
  | store _ hnone => rw [hnone]; rfl
  | land _ _ _ hnone => rw [hnone]; rfl
  | receive _ _ hnone => rw [hnone]; rfl
  | stay => rfl

end Transit
end LessonPress

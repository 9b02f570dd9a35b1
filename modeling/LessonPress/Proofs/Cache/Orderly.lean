import LessonPress.Proofs.Cache.Flights

/-!
# Orderly crowds

## The calls of a crowd and the flights of its cache

The flights of a cache tie its calls together: each has one leader, whose key is the
key of all who joined.  No move disturbs that.
-/

namespace LessonPress

structure Cache.Idle {alpha : Type} (cache : Cache alpha) : Prop where
  flights : forall key, cache.flights.find? key = none
  results : forall flight, cache.nextFlight ≤ flight -> cache.results.find? flight = none

theorem Cache.idle_empty {alpha : Type} : (Cache.empty : Cache alpha).Idle :=
  ⟨fun _ => rfl, fun _ _ => rfl⟩

namespace Crowd

variable {sigma alpha : Type}

/-- The calls of a crowd and the flights of its cache belong together. -/
structure Orderly (crowd : Crowd sigma alpha) : Prop where
  fits : forall (index : Nat) (caller : Caller alpha), crowd.callers[index]? = some caller ->
    caller.Fits crowd.scene.cache
  unique : forall (first second : Nat) (leader other : Caller alpha) (flight : Nat),
    crowd.callers[first]? = some leader -> crowd.callers[second]? = some other ->
    leader.Leads flight -> other.Leads flight -> first = second
  led : forall (index : Nat) (caller : Caller alpha) (flight : Nat),
    crowd.callers[index]? = some caller -> caller.flight? = some flight ->
    flight < crowd.scene.cache.nextFlight ∧
      exists (place : Nat) (leader : Caller alpha), crowd.callers[place]? = some leader ∧
        leader.Leads flight ∧ leader.keyText = caller.keyText ∧
        forall moment, leader.finish = some moment -> caller.start < moment
  slot : forall (key : String) (flight : Nat),
    crowd.scene.cache.flights.find? key = some flight ->
    exists (place : Nat) (leader : Caller alpha), crowd.callers[place]? = some leader ∧
      leader.Leads flight ∧ leader.keyText = key ∧ leader.finish = none
  fresh : forall (flight : Nat) (outcome : Except Error alpha),
    crowd.scene.cache.results.find? flight = some outcome ->
    flight < crowd.scene.cache.nextFlight
  started : forall (index : Nat) (caller : Caller alpha), crowd.callers[index]? = some caller ->
    caller.start < crowd.moment

theorem Orderly.fits_of_mem {crowd : Crowd sigma alpha} (h : crowd.Orderly)
    {caller : Caller alpha} (hmem : caller ∈ crowd.callers) : caller.Fits crowd.scene.cache := by
  obtain ⟨index, hindex⟩ := List.mem_iff_getElem?.mp hmem
  exact h.fits index caller hindex

theorem Orderly.keyed {crowd : Crowd sigma alpha} (h : crowd.Orderly) {index : Nat}
    {caller : Caller alpha} (hcaller : crowd.callers[index]? = some caller) (flight : Nat)
    (key : String) (hflight : caller.flight? = some flight)
    (hkey : crowd.scene.cache.flights.find? key = some flight) : key = caller.keyText := by
  rcases h.slot key flight hkey with ⟨place, leader, hplace, hleads, hleaderKey, _⟩
  rcases (h.led index caller flight hcaller hflight).right with
    ⟨second, other, hsecond, hother, hotherKey, _⟩
  have hsame := h.unique place second leader other flight hplace hsecond hleads hother
  subst hsame
  rw [hplace] at hsecond
  injection hsecond with hsecond
  rw [← hleaderKey, hsecond, hotherKey]

theorem getElem?_set_cases {beta : Type} {items : List beta} {index place : Nat}
    {item other : beta} (h : (items.set index item)[place]? = some other) :
    (place = index ∧ other = item) ∨ (place ≠ index ∧ items[place]? = some other) := by
  rw [List.getElem?_set] at h
  split at h
  · rename_i heq
    split at h
    · injection h with h
      exact Or.inl ⟨heq.symm, h.symm⟩
    · cases h
  · rename_i hne
    exact Or.inr ⟨fun heq => hne heq.symm, h⟩

section Act

variable {crowd next : Crowd sigma alpha} {index : Nat} {caller after : Caller alpha}
  {yield : Option (Yield alpha)} {events : List CacheEvent}

theorem getElem?_set_of (hcaller : crowd.callers[index]? = some caller) (after : Caller alpha)
    {place : Nat} {other : Caller alpha} (hother : crowd.callers[place]? = some other) :
    (other = caller ∧ (crowd.callers.set index after)[place]? = some after) ∨
      (crowd.callers.set index after)[place]? = some other := by
  by_cases hplace : place = index
  · subst hplace
    rw [hcaller] at hother
    injection hother with hother
    have hlt := (List.getElem?_eq_some_iff.mp hcaller).choose
    exact Or.inl ⟨hother.symm, by simp [hlt]⟩
  · refine Or.inr ?_
    rw [List.getElem?_set_ne (Ne.symm hplace)]
    exact hother

theorem leader_after_act (h : crowd.Orderly) (hcaller : crowd.callers[index]? = some caller)
    (hacts : caller.Acts crowd.moment crowd.scene.cache yield events after next.scene.cache)
    (hcallers : next.callers = crowd.callers.set index after) {place : Nat}
    {leader : Caller alpha} {flight : Nat} (hplace : crowd.callers[place]? = some leader)
    (hleads : leader.Leads flight) :
    exists kept, next.callers[place]? = some kept ∧ kept.Leads flight ∧
      kept.keyText = leader.keyText ∧
      forall moment, kept.finish = some moment ->
        leader.finish = some moment ∨ moment = crowd.moment := by
  rw [hcallers]
  rcases getElem?_set_of hcaller after hplace with ⟨hsame, hget⟩ | hget
  · subst hsame
    refine ⟨after, hget, hacts.leads_of_leads (h.fits index leader hcaller).coherent hleads,
      hacts.keyText, ?_⟩
    intro moment hfinish
    rw [hacts.finish, Option.or_eq_some_iff] at hfinish
    rcases hfinish with hfinish | ⟨_, hfinish⟩
    · exact Or.inl hfinish
    · obtain ⟨_, _, hmoment⟩ := Option.map_eq_some_iff.mp hfinish
      exact Or.inr hmoment.symm
  · exact ⟨leader, hget, hleads, rfl, fun _ hfinish => Or.inl hfinish⟩

theorem fits_after_act (h : crowd.Orderly) (hcaller : crowd.callers[index]? = some caller)
    (hacts : caller.Acts crowd.moment crowd.scene.cache yield events after next.scene.cache)
    (hleaves : caller.Leaves after crowd.scene.cache next.scene.cache) {place : Nat}
    {other : Caller alpha} (hplace : place ≠ index)
    (hother : crowd.callers[place]? = some other) : other.Fits next.scene.cache := by
  have hfits := h.fits place other hother
  -- no other call can have led a flight of this one
  have hapart : forall flight, other.Leads flight -> after.Leads flight -> False := by
    intro flight hotherLeads hafterLeads
    rcases hacts.leads (h.fits index caller hcaller).coherent hafterLeads with
      hleads | ⟨_, _, hnew⟩
    · exact hplace (h.unique place index other caller flight hother hcaller hotherLeads hleads)
    · have hbound := (h.led place other flight hother hotherLeads.right).left
      omega
  refine hfits.frame ?_ ?_ ?_
  · intro flight outcome _ hfound
    exact hleaves.kept flight outcome hfound
  · intro flight hholds
    have hheld := hfits.holds flight hholds
    constructor
    · rcases hleaves.released _ _ hheld.left with hkept | ⟨outcome, hfound⟩
      · exact hkept
      · rw [hheld.right] at hfound
        cases hfound
    · cases hfound : next.scene.cache.results.find? flight with
      | none => rfl
      | some outcome =>
          rcases hleaves.added flight outcome hfound with hold | ⟨hafterLeads, _⟩
          · rw [hheld.right] at hold
            cases hold
          · exact absurd hafterLeads (hapart flight (hfits.leads_of_holds hholds))
  · intro flight hflight hgone key hfound
    rcases hleaves.taken key flight hfound with hold | ⟨hnew, _⟩
    · exact hgone key hold
    · have hbound := (h.led place other flight hother hflight).left
      omega

/-- Two calls that lead one flight after a step have led it before, unless the flight has
just been opened. -/
theorem unique_after_act (h : crowd.Orderly) (hcaller : crowd.callers[index]? = some caller)
    (hacts : caller.Acts crowd.moment crowd.scene.cache yield events after next.scene.cache)
    (hcallers : next.callers = crowd.callers.set index after) {first second : Nat}
    {leader other : Caller alpha} {flight : Nat} (hfirst : next.callers[first]? = some leader)
    (hsecond : next.callers[second]? = some other) (hleads : leader.Leads flight)
    (hotherLeads : other.Leads flight) : first = second := by
  have hback : forall (place : Nat) (kept : Caller alpha), next.callers[place]? = some kept ->
      kept.Leads flight -> (exists old, crowd.callers[place]? = some old ∧ old.Leads flight) ∨
        (place = index ∧ flight = crowd.scene.cache.nextFlight) := by
    intro place kept hkept hkeptLeads
    rw [hcallers] at hkept
    rcases getElem?_set_cases hkept with ⟨hplace, hsame⟩ | ⟨_, hold⟩
    · subst hplace hsame
      rcases hacts.leads (h.fits place caller hcaller).coherent hkeptLeads with
        hbefore | ⟨_, _, hnew⟩
      · exact Or.inl ⟨caller, hcaller, hbefore⟩
      · exact Or.inr ⟨rfl, hnew⟩
    · exact Or.inl ⟨kept, hold, hkeptLeads⟩
  have hold : forall (place : Nat) (old : Caller alpha), crowd.callers[place]? = some old ->
      old.Leads flight -> flight ≠ crowd.scene.cache.nextFlight := by
    intro place old hplace holdLeads heq
    have hlt := (h.led place old flight hplace holdLeads.right).left
    omega
  rcases hback first leader hfirst hleads with ⟨old, hplace, holdLeads⟩ | ⟨hplace, hnew⟩
  · rcases hback second other hsecond hotherLeads with ⟨old', hplace', holdLeads'⟩ | ⟨_, hnew⟩
    · exact h.unique first second old old' flight hplace hplace' holdLeads holdLeads'
    · exact absurd hnew (hold first old hplace holdLeads)
  · rcases hback second other hsecond hotherLeads with ⟨old', hplace', holdLeads'⟩ | ⟨hplace', _⟩
    · exact absurd hnew (hold second old' hplace' holdLeads')
    · rw [hplace, hplace']

def LedSince (crowd : Crowd sigma alpha) (flight : Nat) (key : String) (start : Nat) : Prop :=
  flight < crowd.scene.cache.nextFlight ∧
    exists (place : Nat) (leader : Caller alpha), crowd.callers[place]? = some leader ∧
      leader.Leads flight ∧ leader.keyText = key ∧
      forall moment, leader.finish = some moment -> start < moment

theorem LedSince.after_act {flight : Nat} {key : String} {start : Nat}
    (hled : crowd.LedSince flight key start) (hstart : start < crowd.moment) (h : crowd.Orderly)
    (hcaller : crowd.callers[index]? = some caller)
    (hacts : caller.Acts crowd.moment crowd.scene.cache yield events after next.scene.cache)
    (hcallers : next.callers = crowd.callers.set index after)
    (hgrows : crowd.scene.cache.nextFlight ≤ next.scene.cache.nextFlight) :
    next.LedSince flight key start := by
  rcases hled with ⟨hlt, spot, leader, hspot, hleads, hkey, hfinish⟩
  rcases leader_after_act h hcaller hacts hcallers hspot hleads with
    ⟨kept, hkept, hkeptLeads, hkeptKey, hkeptFinish⟩
  refine ⟨Nat.lt_of_lt_of_le hlt hgrows, spot, kept, hkept, hkeptLeads, hkeptKey.trans hkey, ?_⟩
  intro moment hmoment
  rcases hkeptFinish moment hmoment with hbefore | hnow
  · exact hfinish moment hbefore
  · rw [hnow]
    exact hstart

theorem Orderly.ledSince_of_slot (h : crowd.Orderly) {key : String} {flight : Nat}
    (hfound : crowd.scene.cache.flights.find? key = some flight) (start : Nat) :
    crowd.LedSince flight key start := by
  rcases h.slot key flight hfound with ⟨spot, leader, hspot, hleads, hkey, hfinish⟩
  refine ⟨(h.led spot leader flight hspot hleads.right).left, spot, leader, hspot, hleads, hkey, ?_⟩
  intro moment hmoment
  rw [hfinish] at hmoment
  cases hmoment

theorem Orderly.act (h : crowd.Orderly) (hcaller : crowd.callers[index]? = some caller)
    (hacts : caller.Acts crowd.moment crowd.scene.cache yield events after next.scene.cache)
    (hcallers : next.callers = crowd.callers.set index after)
    (hmoment : next.moment = crowd.moment + 1) : next.Orderly := by
  have hfits := h.fits index caller hcaller
  have hbound : forall flight, caller.flight? = some flight ->
      flight < crowd.scene.cache.nextFlight := fun flight hflight =>
    (h.led index caller flight hcaller hflight).left
  have hleaves := hacts.leaves hfits hbound h.fresh
  have hafter := hacts.fits hfits h.fresh (h.keyed hcaller)
  have hall : forall (place : Nat) (other : Caller alpha), next.callers[place]? = some other ->
      other.Fits next.scene.cache := by
    intro place other hother
    rw [hcallers] at hother
    rcases getElem?_set_cases hother with ⟨_, hsame⟩ | ⟨hplace, hold⟩
    · rw [hsame]
      exact hafter
    · exact fits_after_act h hcaller hacts hleaves hplace hold
  have hat : next.callers[index]? = some after := by
    have hlt := (List.getElem?_eq_some_iff.mp hcaller).choose
    rw [hcallers]
    simp [hlt]
  refine ⟨hall, ?unique, ?led, ?slot, ?fresh, ?started⟩
  case unique =>
    intro first second leader other flight hfirst hsecond hleads hotherLeads
    exact unique_after_act h hcaller hacts hcallers hfirst hsecond hleads hotherLeads
  case led =>
    intro place other flight hother hflight
    change next.LedSince flight other.keyText other.start
    rw [hcallers] at hother
    rcases getElem?_set_cases hother with ⟨_, hsame⟩ | ⟨_, hold⟩
    · rw [hsame] at hflight ⊢
      have hstarted := h.started index caller hcaller
      rcases hacts.flight?_cases hfits hflight with hbefore | hjoined | ⟨hlt, hleads, hfinish⟩
      · have hled : crowd.LedSince flight caller.keyText caller.start :=
          h.led index caller flight hcaller hbefore
        rw [hacts.keyText, hacts.start]
        exact hled.after_act hstarted h hcaller hacts hcallers hleaves.grows
      · rw [hacts.keyText, hacts.start]
        exact (h.ledSince_of_slot hjoined caller.start).after_act hstarted h hcaller hacts
          hcallers hleaves.grows
      · refine ⟨hlt, index, after, hat, hleads, rfl, ?_⟩
        intro moment hended
        rw [hfinish] at hended
        cases hended
    · have hled : crowd.LedSince flight other.keyText other.start :=
        h.led place other flight hold hflight
      exact hled.after_act (h.started place other hold) h hcaller hacts hcallers hleaves.grows
  case slot =>
    intro key flight hfound
    rcases hleaves.taken key flight hfound with hold | ⟨_, hkey, hleads, hfinish⟩
    · rcases h.slot key flight hold with ⟨spot, leader, hspot, hleads, hkey, hfinish⟩
      rcases leader_after_act h hcaller hacts hcallers hspot hleads with
        ⟨kept, hkept, hkeptLeads, hkeptKey, _⟩
      refine ⟨spot, kept, hkept, hkeptLeads, hkeptKey.trans hkey, ?_⟩
      exact (hall spot kept hkept).finish_eq_none hkeptLeads hfound
    · exact ⟨index, after, hat, hleads, hacts.keyText.trans hkey.symm, hfinish⟩
  case fresh =>
    intro flight outcome hfound
    rcases hleaves.added flight outcome hfound with hold | ⟨_, hlt⟩
    · exact Nat.lt_of_lt_of_le (h.fresh flight outcome hold) hleaves.grows
    · exact hlt
  case started =>
    intro place other hother
    rw [hcallers] at hother
    rw [hmoment]
    rcases getElem?_set_cases hother with ⟨_, hsame⟩ | ⟨_, hold⟩
    · rw [hsame, hacts.start]
      exact Nat.lt_succ_of_lt (h.started index caller hcaller)
    · exact Nat.lt_succ_of_lt (h.started place other hold)

end Act

/-!
# Runs
-/

theorem Orderly.outside {crowd next : Crowd sigma alpha} (h : crowd.Orderly)
    (hcallers : next.callers = crowd.callers)
    (hsame : crowd.scene.cache.SameFlights next.scene.cache)
    (hmoment : next.moment = crowd.moment + 1) : next.Orderly := by
  refine ⟨?fits, ?unique, ?led, ?slot, ?fresh, ?started⟩
  case fits =>
    intro place caller hcaller
    rw [hcallers] at hcaller
    refine (h.fits place caller hcaller).frame ?_ ?_ ?_
    · intro flight outcome _ hfound
      rw [hsame.results]
      exact hfound
    · intro flight hholds
      rw [hsame.flights, hsame.results]
      exact (h.fits place caller hcaller).holds flight hholds
    · intro flight _ hgone key
      rw [hsame.flights]
      exact hgone key
  case unique =>
    rw [hcallers]
    exact h.unique
  case led =>
    rw [hcallers, hsame.nextFlight]
    exact h.led
  case slot =>
    rw [hcallers, hsame.flights]
    exact h.slot
  case fresh =>
    rw [hsame.results, hsame.nextFlight]
    exact h.fresh
  case started =>
    intro place caller hcaller
    rw [hcallers] at hcaller
    rw [hmoment]
    exact Nat.lt_succ_of_lt (h.started place caller hcaller)

theorem Caller.fits_new (key : CacheKey) (options : CallOptions) (moment : Nat)
    (cache : Cache alpha) : (Caller.new key options moment).Fits cache where
  coherent := ⟨rfl, rfl, List.not_mem_nil⟩
  counted := rfl
  finished := rfl
  holds := by
    intro flight hholds
    cases hholds
  landed := by
    intro flight yield hleads
    cases hleads.right
  settled := by
    intro result ticket hstage
    cases hstage
  gone := by
    intro result flight hstage
    cases hstage

theorem getElem?_append_cases {beta : Type} {items : List beta} {item other : beta}
    {place : Nat} (h : (items ++ [item])[place]? = some other) :
    items[place]? = some other ∨ other = item := by
  rw [List.getElem?_append] at h
  split at h
  · exact Or.inl h
  · exact Or.inr (List.mem_singleton.mp (List.mem_of_getElem? h))

theorem Orderly.enter {crowd next : Crowd sigma alpha} (h : crowd.Orderly) (key : CacheKey)
    (options : CallOptions)
    (hcallers : next.callers = crowd.callers ++ [.new key options crowd.moment])
    (hscene : next.scene = crowd.scene) (hmoment : next.moment = crowd.moment + 1) :
    next.Orderly := by
  -- the new call has no place in a flight yet
  have hold : forall (place : Nat) (caller : Caller alpha) (flight : Nat),
      next.callers[place]? = some caller -> caller.flight? = some flight ->
      crowd.callers[place]? = some caller := by
    intro place caller flight hcaller hflight
    rw [hcallers] at hcaller
    rcases getElem?_append_cases hcaller with hbefore | hnew
    · exact hbefore
    · rw [hnew] at hflight
      cases hflight
  have hkept : forall (place : Nat) (caller : Caller alpha),
      crowd.callers[place]? = some caller -> next.callers[place]? = some caller := by
    intro place caller hcaller
    have hlt := (List.getElem?_eq_some_iff.mp hcaller).choose
    rw [hcallers, List.getElem?_append_left hlt]
    exact hcaller
  refine ⟨?fits, ?unique, ?led, ?slot, ?fresh, ?started⟩
  case fits =>
    intro place caller hcaller
    rw [hcallers] at hcaller
    rw [hscene]
    rcases getElem?_append_cases hcaller with hbefore | hnew
    · exact h.fits place caller hbefore
    · rw [hnew]
      exact Caller.fits_new ..
  case unique =>
    intro first second leader other flight hfirst hsecond hleads hotherLeads
    exact h.unique first second leader other flight (hold _ _ _ hfirst hleads.right)
      (hold _ _ _ hsecond hotherLeads.right) hleads hotherLeads
  case led =>
    intro place caller flight hcaller hflight
    rcases h.led place caller flight (hold _ _ _ hcaller hflight) hflight with
      ⟨hlt, spot, leader, hspot, hleads⟩
    rw [hscene]
    exact ⟨hlt, spot, leader, hkept _ _ hspot, hleads⟩
  case slot =>
    intro text flight hfound
    rw [hscene] at hfound
    rcases h.slot text flight hfound with ⟨spot, leader, hspot, hleads⟩
    exact ⟨spot, leader, hkept _ _ hspot, hleads⟩
  case fresh =>
    rw [hscene]
    exact h.fresh
  case started =>
    intro place caller hcaller
    rw [hcallers] at hcaller
    rw [hmoment]
    rcases getElem?_append_cases hcaller with hbefore | hnew
    · exact Nat.lt_succ_of_lt (h.started place caller hbefore)
    · rw [hnew]
      exact Nat.lt_succ_self _

theorem Orderly.play [Disk sigma] (setup : CacheSetup sigma alpha) {crowd : Crowd sigma alpha}
    (h : crowd.Orderly) (move : Move sigma alpha) : (crowd.play setup move).Orderly := by
  have hmoment := crowd.play_moment setup move
  cases crowd.play_change setup move with
  | outside hcallers hsame => exact h.outside hcallers hsame hmoment
  | enter key options hcallers hscene => exact h.enter key options hcallers hscene hmoment
  | act index caller after yield events hcaller hacts hcallers =>
      exact h.act hcaller hacts hcallers hmoment

theorem Orderly.after [Disk sigma] (setup : CacheSetup sigma alpha)
    (moves : Nat -> Move sigma alpha) {crowd : Crowd sigma alpha} (h : crowd.Orderly)
    (count : Nat) : (crowd.after setup moves count).Orderly := by
  induction count with
  | zero => exact h
  | succ count ih => exact ih.play setup (moves count)

theorem orderly_opened {scene : Scene sigma alpha} (h : scene.cache.Idle) :
    (opened scene).Orderly where
  fits := by
    intro place caller hcaller
    cases hcaller
  unique := by
    intro first second leader other flight hfirst
    cases hfirst
  led := by
    intro place caller flight hcaller
    cases hcaller
  slot := by
    intro key flight hfound
    change scene.cache.flights.find? key = some flight at hfound
    rw [h.flights key] at hfound
    cases hfound
  fresh := by
    intro flight outcome hfound
    apply Nat.lt_of_not_le
    intro hle
    change scene.cache.results.find? flight = some outcome at hfound
    rw [h.results flight hle] at hfound
    cases hfound
  started := by
    intro place caller hcaller
    cases hcaller

/-!
# Calls one by one
-/

theorem mem_actAt {crowd : Crowd sigma alpha} {index : Nat}
    {act : Scene sigma alpha -> Caller alpha -> Caller alpha × Scene sigma alpha}
    {caller : Caller alpha} (h : caller ∈ (crowd.actAt index act).callers) :
    caller ∈ crowd.callers ∨
      exists old, old ∈ crowd.callers ∧ caller = (act crowd.scene old).1 := by
  rcases actAt_eq crowd index act with ⟨_, _, hcallers⟩ | ⟨old, hold, _, hcallers⟩
  · rw [hcallers] at h
    exact Or.inl h
  · rw [hcallers] at h
    rcases List.mem_or_eq_of_mem_set h with hmem | heq
    · exact Or.inl hmem
    · exact Or.inr ⟨old, List.mem_of_getElem? hold, heq⟩

/-- What holds of every new call and is kept by its own steps holds of all calls. -/
theorem Orderly.callers_after [Disk sigma] {setup : CacheSetup sigma alpha}
    {crowd : Crowd sigma alpha} (h : crowd.Orderly) {P : Caller alpha -> Prop}
    (hnew : forall key options moment, P (.new key options moment))
    (hadvance : forall now moment scene caller, caller.Coherent -> P caller ->
      P (caller.advance setup now moment scene).1)
    (hdeliver : forall now moment outcome (scene : Scene sigma alpha) caller,
      caller.Coherent -> P caller -> P (caller.deliver now moment outcome scene).1)
    (hcrowd : forall caller, caller ∈ crowd.callers -> P caller)
    (moves : Nat -> Move sigma alpha) (count : Nat) :
    forall caller, caller ∈ (crowd.after setup moves count).callers -> P caller := by
  induction count with
  | zero => exact hcrowd
  | succ count ih =>
      have horderly := h.after setup moves count
      have hcoherent : forall caller, caller ∈ (crowd.after setup moves count).callers ->
          caller.Coherent := fun caller hmem => (horderly.fits_of_mem hmem).coherent
      intro caller hmem
      unfold Crowd.after at hmem
      cases hmove : moves count with
      | start key options =>
          rw [hmove] at hmem
          cases List.mem_append.mp hmem with
          | inl hold => exact ih caller hold
          | inr hsingle =>
              rw [List.mem_singleton.mp hsingle]
              exact hnew ..
      | advance index now =>
          rw [hmove] at hmem
          rcases mem_actAt hmem with hold | ⟨old, hold, heq⟩
          · exact ih caller hold
          · rw [heq]
            exact hadvance _ _ _ old (hcoherent old hold) (ih old hold)
      | deliver index now outcome =>
          rw [hmove] at hmem
          rcases mem_actAt hmem with hold | ⟨old, hold, heq⟩
          · exact ih caller hold
          · rw [heq]
            exact hdeliver _ _ _ _ old (hcoherent old hold) (ih old hold)
      | invalidate key =>
          rw [hmove] at hmem
          exact ih caller hmem
      | clear =>
          rw [hmove] at hmem
          exact ih caller hmem
      | disturb disk =>
          rw [hmove] at hmem
          exact ih caller hmem

end Crowd
end LessonPress

import LessonPress.Proofs.Cache.Orderly
import LessonPress.Proofs.Cache.Windows

/-!
# Lookups

## What a lookup has found, and what it may answer with

A lookup finds at most one entry, at a time that it has read from the clock.  What
the call does with it later is settled then: the entry is served only if it was
fresh, and its value stands in for a failure only if it had expired and its grace
period had not.
-/

namespace LessonPress

namespace CacheEntry

variable {alpha : Type}

def Expired (entry : CacheEntry alpha) (now : UInt64) : Prop :=
  exists ttl, entry.ttl = some ttl ∧ entry.created.toNat + ttl.toNat ≤ now.toNat

def InGrace (entry : CacheEntry alpha) (now : UInt64) : Prop :=
  exists ttl, entry.ttl = some ttl ∧
    now.toNat < entry.created.toNat + ttl.toNat + entry.grace.toNat

theorem not_expired_of_isFreshAt {entry : CacheEntry alpha} {now : UInt64}
    (h : entry.isFreshAt now = true) : ¬ entry.Expired now := by
  rintro ⟨ttl, httl, hpast⟩
  rw [isFreshAt_iff httl] at h
  omega

theorem expired_inGrace {entry : CacheEntry alpha} {now : UInt64}
    (hfresh : entry.isFreshAt now = false) (hservable : entry.isServableStaleAt now = true) :
    entry.Expired now ∧ entry.InGrace now := by
  cases httl : entry.ttl with
  | none =>
      unfold isFreshAt at hfresh
      rw [httl] at hfresh
      cases hfresh
  | some ttl =>
      have hpast := Bool.eq_false_iff.mp hfresh
      rw [Ne, isFreshAt_iff httl] at hpast
      rw [isServableStaleAt_iff httl] at hservable
      -- a sum that does not fit is never reached, so the bounds are the plain sums
      exact ⟨⟨ttl, httl, by omega⟩, ⟨ttl, httl, by omega⟩⟩

end CacheEntry

def standIn {alpha : Type} (found : Option (CacheEntry alpha × UInt64)) : Option alpha :=
  match found with
  | none => none
  | some (entry, now) =>
      if entry.isFreshAt now = false ∧ entry.isServableStaleAt now = true then
        some entry.value
      else
        none

theorem standIn_eq_some {alpha : Type} {found : Option (CacheEntry alpha × UInt64)} {value : alpha}
    (h : standIn found = some value) :
    exists entry now, found = some (entry, now) ∧ entry.Expired now ∧ entry.InGrace now ∧
      entry.value = value := by
  unfold standIn at h
  cases found with
  | none => cases h
  | some pair =>
      rcases pair with ⟨entry, now⟩
      dsimp only at h
      split at h
      · rename_i hstale
        have hbounds := CacheEntry.expired_inGrace hstale.left hstale.right
        exact ⟨entry, now, rfl, hbounds.left, hbounds.right, Option.some.inj h⟩
      · cases h

/-!
# Phases after a lookup
-/

namespace Phase

variable {alpha : Type}

def GoesOn (trust force : Bool) (found : Option (CacheEntry alpha × UInt64)) :
    Phase alpha -> Prop
  | opening => found = none
  | loading => found = none ∧ force = false
  | restoring _ => found = none ∧ force = false
  | scanning entry _ _ _ => trust = false ∧ force = false ∧
      exists now, found = some (entry, now) ∧ entry.isFreshAt now = true
  | hashing entry _ _ _ _ => trust = false ∧ force = false ∧
      exists now, found = some (entry, now) ∧ entry.isFreshAt now = true
  | missed stale _ => stale = standIn found ∧ (force = true -> found = none)
  | phase => forall ticket, phase.stage.ticket? = some ticket -> ticket.stale = standIn found

end Phase

namespace Call

variable {sigma alpha : Type}

theorem miss_goesOn {call : Call alpha} {scene : Scene sigma alpha} {trust force : Bool}
    {found : Option (CacheEntry alpha × UInt64)} {reason : MissReason} {stale : Option alpha}
    {seen : Option UInt64} (hstale : stale = standIn found)
    (hforce : force = true -> found = none) :
    (call.miss scene reason stale seen).1.phase.GoesOn trust force found :=
  ⟨hstale, hforce⟩

theorem judge_goesOn {setup : CacheSetup sigma alpha} {now : UInt64} {call : Call alpha}
    {scene : Scene sigma alpha} {force : Bool} (entry : CacheEntry alpha)
    (hforce : force = false) :
    (call.judge setup now scene entry).1.phase.GoesOn setup.trust force (some (entry, now)) := by
  have hunforced : force = true -> some (entry, now) = none := by
    intro htrue
    rw [hforce] at htrue
    cases htrue
  unfold judge
  cases htrust : setup.trust with
  | true =>
      intro ticket hticket
      cases hticket
  | false =>
      cases hfresh : entry.isFreshAt now with
      | false =>
          refine miss_goesOn ?_ hunforced
          simp [standIn, hfresh]
      | true =>
          have hnone : none = standIn (some (entry, now)) := by simp [standIn, hfresh]
          simp only [Bool.false_eq_true, if_false, Bool.not_true]
          split
          · exact miss_goesOn hnone hunforced
          · exact ⟨rfl, hforce, now, rfl, hfresh⟩

/-- An entry with a file that has changed was fresh, so nothing stands in for it. -/
theorem changed_goesOn {call : Call alpha} {scene : Scene sigma alpha} {trust force : Bool}
    {found : Option (CacheEntry alpha × UInt64)} {entry : CacheEntry alpha} {now : UInt64}
    (hforce : force = false) (hfound : found = some (entry, now))
    (hfresh : entry.isFreshAt now = true) (file : TrackedFile) :
    (call.changed scene entry file).1.phase.GoesOn trust force found := by
  apply miss_goesOn
  · simp [standIn, hfound, hfresh]
  · intro htrue
    rw [hforce] at htrue
    cases htrue

theorem step_goesOn [Disk sigma] (setup : CacheSetup sigma alpha) (now : UInt64)
    {call : Call alpha} (scene : Scene sigma alpha)
    {found : Option (CacheEntry alpha × UInt64)}
    (h : call.phase.GoesOn setup.trust call.options.forceFresh found) :
    (call.step setup now scene).1.phase.GoesOn setup.trust call.options.forceFresh
      (((call.lookup? scene).map fun entry => (entry, now)).or found) := by
  unfold step lookup?
  cases hphase : call.phase with
  | opening =>
      rw [hphase] at h
      dsimp only [openCall]
      split
      · exact miss_goesOn (by rw [h]; rfl) (fun _ => h)
      · rename_i hforce
        split
        · rename_i entry hentry
          rw [hentry]
          exact judge_goesOn entry (by simpa using hforce)
        · rename_i hentry
          rw [hentry]
          exact ⟨h, by simpa using hforce⟩
  | loading =>
      rw [hphase] at h
      dsimp only [load]
      split <;> exact h
  | restoring loaded =>
      rw [hphase] at h
      have hunforced : call.options.forceFresh = true -> found = none := fun _ => h.left
      have hnone : none = standIn found := by rw [h.left]; rfl
      dsimp only [restore]
      cases loaded with
      | error cause => exact miss_goesOn hnone hunforced
      | ok persisted =>
          cases persisted with
          | none => exact miss_goesOn hnone hunforced
          | some persisted =>
              dsimp only
              cases scene.cache.entries.find? call.keyText with
              | some entry => exact judge_goesOn entry h.right
              | none => exact judge_goesOn persisted.entry h.right
  | scanning entry checked touched pending =>
      rw [hphase] at h
      obtain ⟨htrust, hforce, moment, hfound, hfresh⟩ := h
      dsimp only [scan]
      split
      · intro ticket hticket
        cases hticket
      · split
        · exact ⟨htrust, hforce, moment, hfound, hfresh⟩
        · exact ⟨htrust, hforce, moment, hfound, hfresh⟩
        · exact changed_goesOn hforce hfound hfresh _
  | hashing entry checked file current pending =>
      rw [hphase] at h
      obtain ⟨htrust, hforce, moment, hfound, hfresh⟩ := h
      dsimp only [compare]
      split
      · exact ⟨htrust, hforce, moment, hfound, hfresh⟩
      · exact changed_goesOn hforce hfound hfresh file
  | missed stale seen =>
      rw [hphase] at h
      dsimp only [enter]
      split
      · intro ticket hticket
        cases hticket
        exact h.left
      · split
        · intro ticket hticket
          cases hticket
          exact h.left
        · intro ticket hticket
          cases hticket
          exact h.left
  | capturing ticket =>
      rw [hphase] at h
      dsimp only [capture]
      split <;> exact h
  | reading ticket fingerprint =>
      rw [hphase] at h
      dsimp only [read]
      split <;> exact h
  | computing ticket primary =>
      rw [hphase] at h
      exact (congrArg (Phase.GoesOn _ _ _) hphase).mpr h
  | saving ticket persisted =>
      rw [hphase] at h
      dsimp only [save]
      split <;> exact h
  | saved ticket value outcome =>
      rw [hphase] at h
      dsimp only [supersede]
      split
      · exact h
      · split <;> exact h
  | removing ticket value previous =>
      rw [hphase] at h
      exact h
  | removed ticket value previous outcome =>
      rw [hphase] at h
      exact h
  | waiting ticket =>
      rw [hphase] at h
      dsimp only [receive]
      split
      · exact (congrArg (Phase.GoesOn _ _ _) hphase).mpr h
      · split
        · intro other hother
          cases hother
        · intro other hother
          cases hother
  | done result =>
      rw [hphase] at h
      exact (congrArg (Phase.GoesOn _ _ _) hphase).mpr h

theorem complete_goesOn {now : UInt64} {call : Call alpha} {scene : Scene sigma alpha}
    {trust force : Bool} {found : Option (CacheEntry alpha × UInt64)}
    {outcome : Except Error (Computed alpha)} (h : call.phase.GoesOn trust force found) :
    (call.complete now scene outcome).1.phase.GoesOn trust force found := by
  unfold complete
  split
  · rename_i ticket primary hphase
    rw [hphase] at h
    split <;> exact h
  · exact h

theorem stage_of_lookup? {call : Call alpha} {scene : Scene sigma alpha}
    {entry : CacheEntry alpha} (h : call.lookup? scene = some entry) :
    call.phase.stage = .searching none := by
  unfold lookup? at h
  split at h
  · rename_i hphase
    rw [hphase]
    rfl
  · rename_i hphase
    rw [hphase]
    rfl
  · cases h

end Call

/-!
# Answers of a call itself
-/

/-- What a call came to by itself goes back to what its lookup has found, or to an
entry that was fresh when the flight was taken, or to a computation. -/
def Yield.Allowed {alpha : Type} (trust force : Bool)
    (found : Option (CacheEntry alpha × UInt64)) : Yield alpha -> Prop
  | trusted _ => trust = true
  | checked entry _ => force = false ∧
      exists now, found = some (entry, now) ∧ entry.isFreshAt now = true
  | rechecked entry now => force = false ∧ entry.isFreshAt now = true
  | computed _ => True

theorem Call.newerEntry_allowed {sigma alpha : Type} {now : UInt64} {call : Call alpha}
    {scene : Scene sigma alpha} {seen : Option UInt64} {entry : CacheEntry alpha}
    (h : call.newerEntry now scene seen = some entry) :
    call.options.forceFresh = false ∧ scene.cache.entries.find? call.keyText = some entry ∧
      entry.isFreshAt now = true := by
  unfold newerEntry at h
  split at h
  · cases h
  · rename_i hforce
    split at h
    · cases h
    · rename_i found hfound
      split at h
      · rename_i hfresh
        cases h
        exact ⟨by simpa using hforce, hfound, hfresh.right⟩
      · cases h

theorem Call.yield?_allowed {sigma alpha : Type} {setup : CacheSetup sigma alpha} {now : UInt64}
    {call : Call alpha} {scene : Scene sigma alpha}
    {found : Option (CacheEntry alpha × UInt64)} {yield : Yield alpha}
    (h : call.phase.GoesOn setup.trust call.options.forceFresh found)
    (hyield : call.yield? setup now scene = some yield) :
    yield.Allowed setup.trust call.options.forceFresh
      (((call.lookup? scene).map fun entry => (entry, now)).or found) := by
  have htrusted : forall found',
      (if setup.trust = true then (call.lookup? scene).map Yield.trusted else none) = some yield ->
      yield.Allowed setup.trust call.options.forceFresh found' := by
    intro found' htrust
    split at htrust
    · obtain ⟨entry, _, hentry⟩ := Option.map_eq_some_iff.mp htrust
      rw [← hentry]
      assumption
    · cases htrust
  unfold yield? at hyield
  cases hphase : call.phase with
  | opening => exact htrusted _ (by simpa [hphase] using hyield)
  | restoring loaded => exact htrusted _ (by simpa [hphase] using hyield)
  | scanning entry checked touched pending =>
      rw [hphase] at h hyield
      have hnone : call.lookup? scene = none := by
        unfold lookup?
        rw [hphase]
      rw [hnone]
      cases pending with
      | nil =>
          cases hyield
          exact h.right
      | cons file rest => cases hyield
  | missed stale seen =>
      rw [hphase] at hyield
      dsimp only at hyield
      split at hyield
      · cases hyield
      · obtain ⟨entry, hnewer, hentry⟩ := Option.map_eq_some_iff.mp hyield
        have hallowed := newerEntry_allowed hnewer
        rw [← hentry]
        exact ⟨hallowed.left, hallowed.right.right⟩
  | _ =>
      rw [hphase] at hyield
      cases hyield

theorem Phase.GoesOn.stale_eq {alpha : Type} {phase : Phase alpha} {trust force : Bool}
    {found : Option (CacheEntry alpha × UInt64)} (h : phase.GoesOn trust force found)
    {ticket : Ticket alpha} (hticket : phase.stage.ticket? = some ticket) :
    ticket.stale = standIn found := by
  cases phase with
  | opening => cases hticket
  | loading => cases hticket
  | restoring loaded => cases hticket
  | scanning entry checked touched pending => cases hticket
  | hashing entry checked file current pending => cases hticket
  | missed stale seen => cases hticket
  | _ => exact h ticket hticket

/-!
# Calls
-/

namespace Caller

variable {sigma alpha : Type}

structure Grounded (setup : CacheSetup sigma alpha) (caller : Caller alpha) : Prop where
  phase : caller.call.phase.GoesOn setup.trust caller.call.options.forceFresh caller.found
  unforced : caller.call.options.forceFresh = true -> caller.found = none
  ticket : forall ticket, caller.ticket = some ticket -> ticket.stale = standIn caller.found
  yield : forall yield, caller.yield = some yield ->
    yield.Allowed setup.trust caller.call.options.forceFresh caller.found

theorem grounded_new (setup : CacheSetup sigma alpha) (key : CacheKey) (options : CallOptions)
    (moment : Nat) : (Caller.new key options moment).Grounded setup where
  phase := rfl
  unforced := fun _ => rfl
  ticket := by
    intro ticket hticket
    cases hticket
  yield := by
    intro yield hyield
    cases hyield

theorem Grounded.of_lookup? {setup : CacheSetup sigma alpha} {caller : Caller alpha}
    (h : caller.Grounded setup) (hcoherent : caller.Coherent) {scene : Scene sigma alpha}
    {entry : CacheEntry alpha} (hlookup : caller.call.lookup? scene = some entry) :
    caller.ticket = none ∧ caller.yield = none ∧ caller.call.options.forceFresh = false := by
  have hstage : caller.stage = .searching none := Call.stage_of_lookup? hlookup
  unfold Coherent at hcoherent
  rw [hstage] at hcoherent
  refine ⟨hcoherent.left, hcoherent.right.left, ?_⟩
  have hphase := h.phase
  unfold Call.lookup? at hlookup
  split at hlookup
  · split at hlookup
    · cases hlookup
    · rename_i hforce
      simpa using hforce
  · rename_i hrestoring
    rw [hrestoring] at hphase
    exact hphase.right
  · cases hlookup

theorem Grounded.note {setup : CacheSetup sigma alpha} {caller : Caller alpha}
    (h : caller.Grounded setup) {scene : Scene sigma alpha}
    {found : Option (CacheEntry alpha × UInt64)} {yield : Option (Yield alpha)}
    {next : Call alpha × Scene sigma alpha} (hcall : caller.call.SameCall next.1)
    (hfound : found = none ∨
      (caller.ticket = none ∧ caller.yield = none ∧ caller.call.options.forceFresh = false))
    (hphase : next.1.phase.GoesOn setup.trust caller.call.options.forceFresh
      (found.or caller.found))
    (hyield : forall own, yield = some own ->
      own.Allowed setup.trust caller.call.options.forceFresh (found.or caller.found))
    (moment : Nat) : (caller.note moment scene found yield next).Grounded setup := by
  refine ⟨?phase, ?unforced, ?ticket, ?yield⟩
  case phase =>
    rw [← hcall.right] at hphase
    exact hphase
  case unforced =>
    intro hforce
    change next.1.options.forceFresh = true at hforce
    change found.or caller.found = none
    rw [hcall.right] at hforce
    rcases hfound with hnone | ⟨_, _, hunforced⟩
    · rw [hnone, Option.none_or]
      exact h.unforced hforce
    · rw [hforce] at hunforced
      cases hunforced
  case ticket =>
    intro ticket hticket
    change next.1.phase.stage.ticket?.or caller.ticket = some ticket at hticket
    change ticket.stale = standIn (found.or caller.found)
    rw [Option.or_eq_some_iff] at hticket
    rcases hticket with hstage | ⟨_, hold⟩
    · exact hphase.stale_eq hstage
    · rcases hfound with hnone | ⟨hnew, _⟩
      · rw [hnone, Option.none_or]
        exact h.ticket ticket hold
      · rw [hnew] at hold
        cases hold
  case yield =>
    intro own hown
    change yield.or caller.yield = some own at hown
    change own.Allowed _ next.1.options.forceFresh (found.or caller.found)
    rw [hcall.right]
    rw [Option.or_eq_some_iff] at hown
    rcases hown with hnow | ⟨_, hold⟩
    · exact hyield own hnow
    · rcases hfound with hnone | ⟨_, hnew, _⟩
      · rw [hnone, Option.none_or]
        exact h.yield own hold
      · rw [hnew] at hold
        cases hold

theorem Grounded.advance [Disk sigma] {setup : CacheSetup sigma alpha} {caller : Caller alpha}
    (h : caller.Grounded setup) (hcoherent : caller.Coherent) (now : UInt64) (moment : Nat)
    (scene : Scene sigma alpha) :
    (caller.advance setup now moment scene).1.Grounded setup := by
  refine h.note (Call.sameCall_step ..) ?_ (Call.step_goesOn setup now scene h.phase) ?_ moment
  · cases hlookup : caller.call.lookup? scene with
    | none => exact Or.inl rfl
    | some entry => exact Or.inr (h.of_lookup? hcoherent hlookup)
  · intro own hown
    exact Call.yield?_allowed h.phase hown

theorem Grounded.deliver {setup : CacheSetup sigma alpha} {caller : Caller alpha}
    (h : caller.Grounded setup) (now : UInt64) (moment : Nat)
    (outcome : Except Error (Computed alpha)) (scene : Scene sigma alpha) :
    (caller.deliver now moment outcome scene).1.Grounded setup := by
  unfold Caller.deliver
  split
  · refine h.note (Call.sameCall_complete ..) (Or.inl rfl) ?_ ?_ moment
    · rw [Option.none_or]
      exact Call.complete_goesOn h.phase
    · intro own hown
      cases hown
      exact trivial
  · exact h

end Caller

/-- Whatever the moves, every call answers from what its lookup has found. -/
theorem Crowd.Orderly.grounded_after {sigma alpha : Type} [Disk sigma]
    {setup : CacheSetup sigma alpha} {crowd : Crowd sigma alpha} (h : crowd.Orderly)
    (hcrowd : forall caller, caller ∈ crowd.callers -> caller.Grounded setup)
    (moves : Nat -> Move sigma alpha) (count : Nat) :
    forall caller, caller ∈ (crowd.after setup moves count).callers -> caller.Grounded setup :=
  h.callers_after (Caller.grounded_new setup)
    (fun now moment scene _ hcoherent hground => hground.advance hcoherent now moment scene)
    (fun now moment outcome scene _ _ hground => hground.deliver now moment outcome scene)
    hcrowd moves count

end LessonPress

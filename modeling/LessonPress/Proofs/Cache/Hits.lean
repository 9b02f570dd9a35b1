import LessonPress.Proofs.Cache.Backing
import Mathlib.Tactic.IntervalCases

/-!
# Hits

## When a cached value is one that the file still gives

A hit gives a value that was computed from bytes read at some earlier moment.  Whether
the file still held these bytes during the call depends on what the check compared: the
hash of the bytes that the computation read, or of bytes that had been captured before
it read them.
-/

namespace LessonPress

namespace Yield

variable {alpha : Type}

def entry? : Yield alpha -> Option (CacheEntry alpha)
  | checked entry _ => some entry
  | rechecked entry _ => some entry
  | _ => none

def comparedHash? : Yield alpha -> Option ContentHash
  | checked _ (own :: _) => some own.contentHash
  | _ => none

theorem result_of_entry? {yield : Yield alpha} {entry : CacheEntry alpha}
    (h : yield.entry? = some entry) : yield.result = .ok entry.value := by
  cases yield with
  | checked own files =>
      cases h
      rfl
  | rechecked own now =>
      cases h
      rfl
  | _ => cases h

end Yield

/-!
# Events
-/

theorem Transit.hit_not_mem {alpha : Type} {key : String} {stage after : Stage alpha}
    {cache next : Cache alpha} {events : List CacheEvent}
    (h : Transit key stage cache none events after next) : .hit ∉ events := by
  cases h with
  | search _ hnone => exact not_mem_of_answers hnone rfl
  | join _ => simp
  | lead _ _ _ _ => exact List.not_mem_nil
  | work _ => exact List.not_mem_nil
  | store _ hnone => exact not_mem_of_answers hnone rfl
  | land _ _ _ hnone => exact not_mem_of_answers hnone rfl
  | receive _ _ hnone => exact not_mem_of_answers hnone rfl
  | stay => exact List.not_mem_nil

namespace Call

variable {sigma alpha : Type}

theorem hit_not_mem_emit {scene before : Scene sigma alpha} (hahead : Ahead scene before)
    (key : String) {event : CacheEvent} (hne : CacheEvent.hit ≠ event) :
    .hit ∉ before.since (scene.emit key event) := by
  have hsilent : CacheEvent.hit ∉ before.since scene := not_mem_of_answers hahead.silent rfl
  rw [Scene.since_emit hahead.length]
  simp [hsilent, hne]

theorem hit_not_mem_judge {setup : CacheSetup sigma alpha} {now : UInt64} {call : Call alpha}
    {scene before : Scene sigma alpha} (hahead : Ahead scene before) (entry : CacheEntry alpha) :
    .hit ∉ before.since (call.judge setup now scene entry).2 := by
  unfold judge
  split
  · exact hit_not_mem_emit hahead _ (by simp)
  · split
    · exact hit_not_mem_emit hahead _ (by simp)
    · split
      · exact hit_not_mem_emit hahead _ (by simp)
      · exact not_mem_of_answers hahead.silent rfl

theorem hit_not_mem_openCall (setup : CacheSetup sigma alpha) (now : UInt64) (call : Call alpha)
    (scene : Scene sigma alpha) : .hit ∉ scene.since (call.openCall setup now scene).2 := by
  unfold openCall
  split
  · exact hit_not_mem_emit (.refl scene) _ (by simp)
  · split
    · exact hit_not_mem_judge (.refl scene) _
    · simp

theorem hit_not_mem_restore (setup : CacheSetup sigma alpha) (now : UInt64) (call : Call alpha)
    (scene : Scene sigma alpha) (loaded : Except Error (Option (PersistedEntry alpha))) :
    .hit ∉ scene.since (call.restore setup now scene loaded).2 := by
  unfold restore
  split
  · rename_i cause
    have hfailed : CacheEvent.isAnswer (.loadFailed cause.message) = false := rfl
    exact hit_not_mem_emit ((Ahead.refl scene).emit call.keyText hfailed) _ (by simp)
  · exact hit_not_mem_emit (.refl scene) _ (by simp)
  · split
    · exact hit_not_mem_judge (.refl scene) _
    · have hrestored : CacheEvent.isAnswer .restored = false := rfl
      refine hit_not_mem_judge (Ahead.emit ?_ _ hrestored) _
      exact ⟨⟨rfl, rfl, rfl⟩, Nat.le_refl _, (Ahead.refl scene).silent⟩

theorem yield?_of_hit [Disk sigma] {setup : CacheSetup sigma alpha} {now : UInt64}
    {call : Call alpha} {scene : Scene sigma alpha}
    (h : .hit ∈ scene.since (call.step setup now scene).2) :
    exists yield entry, call.yield? setup now scene = some yield ∧ yield.entry? = some entry := by
  have htransits := step_transits setup now call scene
  cases hyield : call.yield? setup now scene with
  | none =>
      unfold Transits at htransits
      rw [hyield] at htransits
      exact absurd h htransits.hit_not_mem
  | some yield =>
      unfold yield? at hyield
      unfold step at h
      cases hphase : call.phase with
      | opening =>
          rw [hphase] at h
          exact absurd h (hit_not_mem_openCall setup now call scene)
      | restoring loaded =>
          rw [hphase] at h
          exact absurd h (hit_not_mem_restore setup now call scene loaded)
      | scanning entry checked touched pending =>
          rw [hphase] at hyield
          cases pending with
          | nil =>
              cases hyield
              exact ⟨_, entry, rfl, rfl⟩
          | cons file rest => cases hyield
      | missed stale seen =>
          rw [hphase] at hyield
          dsimp only at hyield
          split at hyield
          · cases hyield
          · obtain ⟨entry, _, hentry⟩ := Option.map_eq_some_iff.mp hyield
            exact ⟨yield, entry, rfl, by rw [← hentry]; rfl⟩
      | _ =>
          rw [hphase] at hyield
          cases hyield

theorem hit_not_mem_complete {now : UInt64} {call : Call alpha} {scene : Scene sigma alpha}
    (outcome : Except Error (Computed alpha)) :
    .hit ∉ scene.since (call.complete now scene outcome).2 := by
  unfold complete
  split
  · cases outcome with
    | error cause =>
        dsimp only
        rw [since_land]
        exact hit_not_mem_emit (.refl scene) _ (by simp)
    | ok computed => simp [Scene.since, Scene.emit]
  · simp

end Call

/-!
# Calls with a hit
-/

namespace Caller

variable {sigma alpha : Type} {caller : Caller alpha}

/-- If the call has reported a hit, it has come to the value of an entry. -/
def Served (caller : Caller alpha) : Prop :=
  .hit ∈ caller.log ->
    exists yield entry, caller.yield = some yield ∧ yield.entry? = some entry

theorem Served.advance [Disk sigma] {setup : CacheSetup sigma alpha} (h : caller.Served)
    (hcoherent : caller.Coherent) (now : UInt64) (moment : Nat) (scene : Scene sigma alpha) :
    (caller.advance setup now moment scene).1.Served := by
  intro hhit
  change .hit ∈ caller.log ++ scene.since (caller.call.step setup now scene).2 at hhit
  change exists yield entry,
    (caller.call.yield? setup now scene).or caller.yield = some yield ∧ _
  rcases List.mem_append.mp hhit with hold | hnow
  · rcases h hold with ⟨yield, entry, hyield, hentry⟩
    cases hown : caller.call.yield? setup now scene with
    | none => exact ⟨yield, entry, hyield, hentry⟩
    | some own =>
        -- a call that comes to something now has not come to anything before
        obtain ⟨_, stale, hstage⟩ := Call.yield?_flown hown
        unfold Coherent stage at hcoherent
        rw [hstage] at hcoherent
        rw [hcoherent.right.left] at hyield
        cases hyield
  · rcases Call.yield?_of_hit hnow with ⟨yield, entry, hyield, hentry⟩
    refine ⟨yield, entry, ?_, hentry⟩
    rw [hyield]
    rfl

theorem Served.deliver (h : caller.Served) (hcoherent : caller.Coherent) (now : UInt64)
    (moment : Nat) (outcome : Except Error (Computed alpha)) (scene : Scene sigma alpha) :
    (caller.deliver now moment outcome scene).1.Served := by
  unfold Caller.deliver
  split
  · rename_i ticket primary hphase
    intro hhit
    change .hit ∈ caller.log ++ scene.since (caller.call.complete now scene outcome).2 at hhit
    rcases List.mem_append.mp hhit with hold | hnow
    · rcases h hold with ⟨yield, entry, hyield, _⟩
      unfold Coherent stage at hcoherent
      rw [hphase] at hcoherent
      rw [hcoherent.right.left] at hyield
      cases hyield
    · exact absurd hnow (Call.hit_not_mem_complete outcome)
  · exact h

theorem Fits.result_of_hit {cache : Cache alpha} (h : caller.Fits cache)
    (hmatched : caller.Matched) (hhit : .hit ∈ caller.log) {yield : Yield alpha}
    {entry : CacheEntry alpha} (hyield : caller.yield = some yield)
    (hentry : yield.entry? = some entry) {result : Except Error alpha}
    (hdone : caller.stage = .done result) : result = .ok entry.value := by
  have hcoherent := h.coherent
  have hflown := hmatched yield hyield
  have hresult := yield.result_of_entry? hentry
  cases hticket : caller.ticket with
  | none =>
      unfold Coherent at hcoherent
      rw [hdone] at hcoherent
      simp only [hticket] at hcoherent
      rcases hcoherent.right with ⟨own, hown, hgiven⟩
      rw [hyield] at hown
      injection hown with hown
      rw [← hgiven, ← hown, hresult]
  | some ticket =>
      -- the call has not joined, since it has answered already
      have hjoined : .joined ∉ caller.log := by
        intro hjoined
        have htwo := two_le_answers (by simp) rfl rfl hhit hjoined
        rw [h.counted, hdone] at htwo
        change 2 ≤ 1 at htwo
        omega
      have hflight : caller.flight? = some ticket.flight := by
        unfold flight?
        rw [hticket]
        rfl
      have hholds : caller.stage.holds? = none := by
        rw [hdone]
        rfl
      have hlanded := h.landed ticket.flight yield ⟨hjoined, hflight⟩ hyield hholds
      rcases h.settled result ticket hdone hticket with ⟨outcome, hfound, hgiven⟩
      rw [hlanded] at hfound
      injection hfound with hfound
      rw [hgiven, ← hfound, hresult]
      rfl

end Caller

/-!
# What a hit gives
-/

section Moments

variable (files : Nat -> FileSystem) (path : FilePath)

/-- The check has compared the hash of the bytes that the computation read.  A hit that
comes without a comparison is accurate if the file holds the bytes when the computation
and the beginning of the call are both over. -/
def Accurate (start readAt : Nat) (bytes : ByteArray) : Option ContentHash -> Prop
  | some hash => hash = .of bytes
  | none => (files (max start readAt)).read path = .ok bytes

/-- The result is the value of a content that the file holds during the call. -/
def Current {alpha : Type} (f : ByteArray -> alpha) (start ended : Nat)
    (result : Except Error alpha) : Prop :=
  exists content, Held files path start ended content ∧ result = .ok (f content)

def Steady (start ended : Nat) : Prop :=
  forall moment, start ≤ moment -> moment ≤ ended ->
    (files moment).read path = (files start).read path

variable {files path} {alpha : Type} {stored : Nat -> CacheEntry alpha -> Prop}
  {f : ByteArray -> alpha} {start ended readAt : Nat} {bytes : ByteArray} {yield : Yield alpha}

theorem Yield.Backed.held (h : yield.Backed files path stored start ended)
    {hash : ContentHash} (hcompared : yield.comparedHash? = some hash) :
    exists content, Held files path start ended content ∧ hash = .of content := by
  cases yield with
  | checked entry tracked =>
      cases tracked with
      | nil => cases hcompared
      | cons own rest =>
          cases hcompared
          exact h.right.right
  | _ => cases hcompared

theorem Yield.Backed.made (h : yield.Backed files path stored start ended)
    {entry : CacheEntry alpha} (hentry : yield.entry? = some entry) :
    Made stored ended entry := by
  cases yield with
  | checked own tracked =>
      cases hentry
      exact h.left
  | rechecked own now =>
      cases hentry
      exact h
  | _ => cases hentry

theorem current_of_accurate (h : yield.Backed files path stored start ended)
    (hstart : start ≤ ended) (hread : readAt ≤ ended)
    (hhash : forall content, Held files path start ended content ->
      ContentHash.of content = .of bytes -> content = bytes)
    (haccurate : Accurate files path start readAt bytes yield.comparedHash?) :
    Current files path f start ended (.ok (f bytes)) := by
  cases hcompared : yield.comparedHash? with
  | none =>
      rw [hcompared] at haccurate
      exact ⟨bytes, ⟨max start readAt, by omega, by omega, haccurate⟩, rfl⟩
  | some hash =>
      rw [hcompared] at haccurate
      rcases h.held hcompared with ⟨content, hheld, hcontent⟩
      have hsame := hhash content hheld (hcontent.symm.trans haccurate)
      subst hsame
      exact ⟨content, hheld, rfl⟩

theorem accurate_of_current (h : yield.Backed files path stored start ended)
    (hstart : start ≤ ended) (hread : readAt ≤ ended) (hsteady : Steady files path start ended)
    (hdepends : forall content, f content = f bytes -> content = bytes)
    (hcurrent : Current files path f start ended (.ok (f bytes))) :
    Accurate files path start readAt bytes yield.comparedHash? := by
  rcases hcurrent with ⟨content, ⟨moment, hlower, hupper, hheld⟩, hvalue⟩
  injection hvalue with hvalue
  have hsame := hdepends content hvalue.symm
  subst hsame
  rw [hsteady moment hlower hupper] at hheld
  cases hcompared : yield.comparedHash? with
  | none =>
      change (files (max start readAt)).read path = .ok content
      rw [hsteady (max start readAt) (by omega) (by omega)]
      exact hheld
  | some hash =>
      rcases h.held hcompared with ⟨other, ⟨spot, hlower', hupper', hother⟩, hhash⟩
      rw [hsteady spot hlower' hupper', hheld] at hother
      injection hother with hother
      rw [hhash, ← hother]
      rfl

end Moments

namespace Crowd

variable {sigma alpha : Type} [Disk sigma] {setup : CacheSetup sigma alpha}
  {moves : Nat -> Move sigma alpha} {scene : Scene sigma alpha} {key : String}
  {path : FilePath} {count : Nat} {f : ByteArray -> alpha} {readAt : Nat -> Nat}
  {bytes : Nat -> ByteArray}

theorem served_after (hidle : scene.cache.Idle) (moves : Nat -> Move sigma alpha) (count : Nat)
    {caller : Caller alpha} (hmem : caller ∈ ((opened scene).after setup moves count).callers) :
    caller.Matched ∧ caller.Served := by
  refine (orderly_opened hidle).callers_after (P := fun caller => caller.Matched ∧ caller.Served)
    ?new ?advance ?deliver ?first moves count caller hmem
  case new =>
    intro key options moment
    constructor
    · intro yield hyield
      cases hyield
    · intro hhit
      cases hhit
  case advance =>
    intro now moment scene caller hcoherent h
    exact ⟨h.left.advance hcoherent now moment scene, h.right.advance hcoherent now moment scene⟩
  case deliver =>
    intro now moment outcome scene caller hcoherent h
    exact ⟨h.left.deliver now moment outcome scene,
      h.right.deliver hcoherent now moment outcome scene⟩
  case first =>
    intro caller hmem
    cases hmem

/-- A hit answers with a value that was computed from bytes read at an earlier moment.
If the hit is accurate, the file holds these bytes during the call.  If it is not, the
value is out of date, unless the file has changed during the call or the value does not
depend on the bytes. -/
theorem hit_current (hidle : scene.cache.Idle)
    (hentry : scene.cache.entries.find? key = none)
    (hrecord : scene.cache.records.find? key = none)
    (hhonest : (opened scene).Honest setup moves key path count f readAt bytes)
    {caller : Caller alpha} (hmem : caller ∈ ((opened scene).after setup moves count).callers)
    (hkey : caller.keyText = key) (hhit : .hit ∈ caller.log) {result : Except Error alpha}
    (hdone : caller.call.phase = .done result) :
    exists yield entry moment ended,
      caller.yield = some yield ∧ yield.entry? = some entry ∧ caller.finish = some ended ∧
        (opened scene).StoredAt setup moves key moment entry ∧ moment < ended ∧
        result = .ok (f (bytes moment)) ∧
        (Accurate ((opened scene).filesAt setup moves) path caller.start (readAt moment)
            (bytes moment) yield.comparedHash? ->
          Current ((opened scene).filesAt setup moves) path f caller.start ended result) ∧
        (Steady ((opened scene).filesAt setup moves) path caller.start ended ->
          (forall content, f content = f (bytes moment) -> content = bytes moment) ->
          Current ((opened scene).filesAt setup moves) path f caller.start ended result ->
          Accurate ((opened scene).filesAt setup moves) path caller.start (readAt moment)
            (bytes moment) yield.comparedHash?) := by
  have horderly := (orderly_opened hidle).after setup moves count
  obtain ⟨hmatched, hserved⟩ := served_after hidle moves count hmem
  rcases hserved hhit with ⟨yield, entry, hyield, hserves⟩
  have hfits := horderly.fits_of_mem hmem
  have hstage := Caller.stage_of_done hdone
  have hresult := hfits.result_of_hit hmatched hhit hyield hserves hstage
  have hfinish : exists ended, caller.finish = some ended := by
    have hfinished := hfits.finished
    rw [hstage] at hfinished
    exact Option.isSome_iff_exists.mp hfinished
  rcases hfinish with ⟨ended, hended⟩
  have hcalls := (backed_after hidle hentry hrecord hhonest (Nat.le_refl count)).calls caller
    hmem hkey
  have hlimit : caller.limit count = ended := by
    unfold Caller.limit
    rw [hended]
    rfl
  have hbacked := hcalls.yield yield hyield
  have hstart := hcalls.started
  have hbound := hcalls.ended
  rw [hlimit] at hbacked hstart hbound
  -- the entry was stored within the run, before the call ended
  rcases hbacked.made hserves with ⟨moment, hbefore, hstored⟩
  rcases hhonest.read moment entry (Nat.lt_of_lt_of_le hbefore hbound) hstored with
    ⟨hreadAt, hread, hvalue⟩
  rw [hvalue] at hresult
  have hearly : readAt moment ≤ ended := Nat.le_trans hreadAt (Nat.le_of_lt hbefore)
  refine ⟨yield, entry, moment, ended, hyield, hserves, hended, hstored, hbefore, hresult, ?_, ?_⟩
  · intro haccurate
    rw [hresult]
    refine current_of_accurate hbacked hstart hearly ?_ haccurate
    rintro content ⟨spot, _, hspot, hheld⟩ hhash
    exact hhonest.hashed spot (readAt moment) content (bytes moment)
      (Nat.le_trans hspot hbound) (Nat.le_trans hearly hbound) hheld hread hhash
  · intro hsteady hdepends hcurrent
    rw [hresult] at hcurrent
    exact accurate_of_current hbacked hstart hearly hsteady hdepends hcurrent

/-!
# A file that is edited while it is computed from
-/

def oneByte (content : UInt8) (seconds : Nat) : FileSystem :=
  ⟨Table.empty.insert ["a"] (.file ⟨⟨#[content]⟩, ⟨seconds, 0⟩⟩), [], ⟨0, 0⟩⟩

/-- Two calls of a file that holds `A`.  While the first one computes, the file gets
another content, which is gone again before the second one begins. -/
def editedRun (middle : UInt8) : List (Move FileSystem ByteArray) :=
  let key := CacheKey.file ⟨"a"⟩
  let options : CallOptions := ⟨none, .zero, false⟩
  let first := Move.advance 0 0
  let second := Move.advance 1 0
  [.start key options, first, first, first, first, first, first, .disturb (oneByte middle 2),
    .deliver 0 0 (.ok ⟨⟨#[middle]⟩, []⟩), first, first, first, .disturb (oneByte 65 3),
    .start key options, second, second, second, second]

def editedScene : Scene FileSystem ByteArray :=
  ⟨.empty, oneByte 65 1, []⟩

def untrusting : CacheSetup FileSystem ByteArray :=
  ⟨false, none⟩

def editedByte (middle : UInt8) (moment : Nat) : UInt8 :=
  if 8 ≤ moment ∧ moment ≤ 12 then middle else 65

def editedTime (moment : Nat) : Nat :=
  if moment ≤ 7 then 1 else if moment ≤ 12 then 2 else 3

theorem editedByte_cases (middle : UInt8) (moment : Nat) :
    editedByte middle moment = middle ∨ editedByte middle moment = 65 := by
  unfold editedByte
  split
  · exact Or.inl rfl
  · exact Or.inr rfl

theorem filesAt_edited (middle : UInt8) {moment : Nat} (h : moment ≤ 18) :
    (opened editedScene).filesAt untrusting (script (editedRun middle)) moment =
      oneByte (editedByte middle moment) (editedTime moment) := by
  unfold filesAt
  rw [after_disk rfl]
  interval_cases moment <;> rfl

theorem read_oneByte (content : UInt8) (seconds : Nat) :
    (oneByte content seconds).read ⟨"a"⟩ = .ok ⟨#[content]⟩ := by
  rfl

theorem fingerprint_oneByte (content : UInt8) (seconds : Nat) :
    Fingerprint.read (oneByte content seconds) ⟨"a"⟩ =
      .ok ⟨⟨"a"⟩, 1, (⟨seconds, 0⟩ : Timestamp).millis⟩ := by
  rfl

theorem toldApart_edited (middle : UInt8) :
    ToldApart ((opened editedScene).filesAt untrusting (script (editedRun middle))) ⟨"a"⟩ 18 := by
  intro moment hlt hview earlier current recorded hearlier hcurrent hrecorded
  rw [filesAt_edited middle hlt, filesAt_edited middle (Nat.le_of_lt hlt)] at hview
  rw [filesAt_edited middle hlt, fingerprint_oneByte] at hcurrent
  rw [filesAt_edited middle (by omega), fingerprint_oneByte] at hrecorded
  have hedit : moment = 7 ∨ moment = 12 := by
    by_cases hseven : moment = 7
    · exact Or.inl hseven
    · by_cases htwelve : moment = 12
      · exact Or.inr htwelve
      · have hbyte : editedByte middle (moment + 1) = editedByte middle moment := by
          unfold editedByte
          split <;> split <;> first | rfl | omega
        have htime : editedTime (moment + 1) = editedTime moment := by
          unfold editedTime
          repeat' split
          all_goals first | rfl | omega
        rw [hbyte, htime] at hview
        exact absurd rfl hview
  have htold : forall times : Nat × Nat, times ∈ [(2, 1), (3, 1), (3, 2)] ->
      Fingerprint.agrees ⟨⟨"a"⟩, 1, (⟨times.1, 0⟩ : Timestamp).millis⟩
        ⟨⟨"a"⟩, 1, (⟨times.2, 0⟩ : Timestamp).millis⟩ = false := by
    decide +kernel
  cases hcurrent
  cases hrecorded
  rcases hedit with hmoment | hmoment
  · subst hmoment
    have htime : editedTime earlier = 1 := if_pos hearlier
    rw [htime]
    exact htold (2, 1) (by simp)
  · subst hmoment
    have htime : editedTime earlier = 1 ∨ editedTime earlier = 2 := by
      unfold editedTime
      split
      · exact Or.inl rfl
      · exact Or.inr rfl
    rcases htime with htime | htime
    · rw [htime]
      exact htold (3, 1) (by simp)
    · rw [htime]
      exact htold (3, 2) (by simp)

theorem honest_edited {middle : UInt8}
    (hhash : ContentHash.of ⟨#[middle]⟩ = ContentHash.of ⟨#[65]⟩ -> middle = 65) :
    (opened editedScene).Honest untrusting (script (editedRun middle)) "file:a" ⟨"a"⟩ 18 id
      (fun moment => moment) (fun _ => ⟨#[middle]⟩) where
  keyed := by
    intro moment other options hlt hmove hkey
    interval_cases moment <;> cases hmove <;> rfl
  read := by
    rintro moment entry hlt ⟨index, now, computed, caller, ticket, primary, hmove, _, _, _, hentry⟩
    refine ⟨Nat.le_refl _, ?_, ?_⟩
    · rw [filesAt_edited middle (Nat.le_of_lt hlt)]
      interval_cases moment <;> cases hmove
      rfl
    · rw [hentry]
      interval_cases moment <;> cases hmove
      rfl
  told := toldApart_edited middle
  hashed := by
    intro moment other content bytes hmoment hother hread hread' hsame
    rw [filesAt_edited middle hmoment, read_oneByte] at hread
    rw [filesAt_edited middle hother, read_oneByte] at hread'
    cases hread
    cases hread'
    rcases editedByte_cases middle moment with hbyte | hbyte
    · rcases editedByte_cases middle other with hbyte' | hbyte'
      · rw [hbyte, hbyte']
      · rw [hbyte, hbyte'] at hsame ⊢
        rw [hhash hsame]
    · rcases editedByte_cases middle other with hbyte' | hbyte'
      · rw [hbyte, hbyte'] at hsame ⊢
        rw [hhash hsame.symm]
      · rw [hbyte, hbyte']
  loaded := by
    intro moment caller store persisted _ _ _ _ hstore
    cases hstore

theorem edited_call {middle : UInt8} (h : middle = 65 ∨ middle = 66) :
    exists caller,
      caller ∈ ((opened editedScene).after untrusting (script (editedRun middle)) 18).callers ∧
        caller.keyText = "file:a" ∧ caller.call.options.forceFresh = false ∧
        .hit ∈ caller.log ∧ caller.call.phase = .done (.ok ⟨#[middle]⟩) ∧ caller.start = 13 ∧
        caller.finish = some 17 ∧
        caller.yield.bind Yield.comparedHash? = some (.of ⟨#[65]⟩) := by
  have hmem : ("file:a", false, true, some (.ok ⟨#[middle]⟩), 13, some 17,
      some (ContentHash.of ⟨#[65]⟩)) ∈
      ((opened editedScene).after untrusting (script (editedRun middle)) 18).callers.map
        fun caller => (caller.keyText, caller.call.options.forceFresh,
          caller.log.contains .hit, caller.call.result?, caller.start, caller.finish,
          caller.yield.bind Yield.comparedHash?) := by
    rcases h with h | h <;> subst h <;> decide +kernel
  obtain ⟨caller, hcaller, hfacts⟩ := List.mem_map.mp hmem
  simp only [Prod.mk.injEq] at hfacts
  obtain ⟨hkey, hforce, hhit, hresult, hstart, hfinish, hcompared⟩ := hfacts
  exact ⟨caller, hcaller, hkey, hforce, List.contains_iff_mem.mp hhit,
    Call.phase_of_result? hresult, hstart, hfinish, hcompared⟩

theorem hit_current_edited :
    exists caller ended,
      caller ∈ ((opened editedScene).after untrusting (script (editedRun 65)) 18).callers ∧
        .hit ∈ caller.log ∧ caller.finish = some ended ∧
        Current ((opened editedScene).filesAt untrusting (script (editedRun 65))) ⟨"a"⟩ id
          caller.start ended (.ok ⟨#[65]⟩) := by
  rcases edited_call (Or.inl rfl) with
    ⟨caller, hmem, hkey, _, hhit, hdone, _, _, hcompared⟩
  rcases hit_current Cache.idle_empty rfl rfl (honest_edited fun _ => rfl) hmem hkey hhit hdone
    with ⟨yield, _, moment, ended, hyield, _, hended, _, _, _, hcurrent, _⟩
  refine ⟨caller, ended, hmem, hhit, hended, hcurrent ?_⟩
  rw [hyield] at hcompared
  change yield.comparedHash? = _ at hcompared
  rw [hcompared]
  rfl

/-- If the computation reads other bytes than have been captured, and the captured ones
come back, then a hit gives the value of bytes that are long gone. -/
theorem hit_not_current :
    exists caller ended,
      (opened editedScene).Honest untrusting (script (editedRun 66)) "file:a" ⟨"a"⟩ 18 id
          (fun moment => moment) (fun _ => ⟨#[66]⟩) ∧
        caller ∈ ((opened editedScene).after untrusting (script (editedRun 66)) 18).callers ∧
        caller.call.options.forceFresh = false ∧ .hit ∈ caller.log ∧
        caller.finish = some ended ∧ caller.call.phase = .done (.ok ⟨#[66]⟩) ∧
        ¬ Current ((opened editedScene).filesAt untrusting (script (editedRun 66))) ⟨"a"⟩ id
          caller.start ended (.ok ⟨#[66]⟩) := by
  rcases edited_call (Or.inr rfl) with
    ⟨caller, hmem, hkey, hforce, hhit, hdone, hstart, hfinish, _⟩
  have hhash : ContentHash.of ⟨#[66]⟩ = ContentHash.of ⟨#[65]⟩ -> (66 : UInt8) = 65 := by
    intro hsame
    exact absurd hsame (by decide +kernel)
  refine ⟨caller, 17, honest_edited hhash, hmem, hforce, hhit, hfinish, hdone, ?_⟩
  rintro ⟨content, ⟨moment, hlower, hupper, hread⟩, hvalue⟩
  rw [hstart] at hlower
  have hbyte : editedByte 66 moment = 65 := if_neg (by omega)
  rw [filesAt_edited 66 (by omega), read_oneByte, hbyte] at hread
  cases hread
  cases hvalue

end Crowd
end LessonPress

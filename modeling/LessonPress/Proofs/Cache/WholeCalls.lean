import LessonPress.Proofs.Cache.Course
import LessonPress.Proofs.Cache.Runs
import LessonPress.Proofs.Cache.Standing

/-!
# Whole calls

## What a call comes to when nothing else goes on

A call by itself looks its key up and ends with a hit, or it misses.  Then it takes the
flight of its key, captures the key's own file, computes, and either fails or stores the
value.  No flight is left when it is at its end.
-/

namespace LessonPress

def CacheSetup.ReadsOnly {sigma alpha : Type} (setup : CacheSetup sigma alpha) : Prop :=
  forall store key disk, setup.store = some store -> (store.load key disk).2 = disk

namespace Call

variable {sigma alpha : Type} [Disk sigma] {setup : CacheSetup sigma alpha} {now : UInt64}
  {call : Call alpha} {scene : Scene sigma alpha}

/-!
# Looking up
-/

structure Finds (setup : CacheSetup sigma alpha) (call : Call alpha)
    (scene found : Scene sigma alpha) : Prop where
  disk : found.disk = scene.disk
  flights : found.cache.flights = scene.cache.flights
  entries : found.cache.entries = scene.cache.entries ∨
    exists persisted, call.loaded setup scene.disk = .ok (some persisted) ∧
      found.cache.entries = scene.cache.entries.insert call.keyText persisted.entry
  events : exists earlier, found.events = scene.events ++ earlier

omit [Disk sigma] in
theorem Finds.refl (setup : CacheSetup sigma alpha) (call : Call alpha)
    (scene : Scene sigma alpha) : call.Finds setup scene scene :=
  ⟨rfl, rfl, Or.inl rfl, [], by rw [List.append_nil]⟩

inductive LookUpEnds (setup : CacheSetup sigma alpha) (now : UInt64) (call : Call alpha)
    (scene : Scene sigma alpha) : Call alpha × Scene sigma alpha -> Prop where
  | served {found : Scene sigma alpha} {entry : CacheEntry alpha}
      {files renewed : List TrackedFile} {moved : Bool} :
      call.Finds setup scene found ->
      found.cache.entries.find? call.keyText = some entry ->
      found.cache.records.find? call.keyText = some files ->
      FileRecords.checkList (Disk.files scene.disk) files = .ok (renewed, moved) ->
      LookUpEnds setup now call scene
        (call.goTo (.done (.ok entry.value)), found.pass call.keyText renewed moved)
  | missed {found : Scene sigma alpha} {stale : Option alpha} {seen : Option UInt64}
      (reason : MissReason) :
      call.Finds setup scene found ->
      call.newerEntry now found seen = none ->
      ((forall entry, found.cache.entries.find? call.keyText = some entry ->
        entry.isFreshAt now = true) -> stale = none) ->
      LookUpEnds setup now call scene (call.miss found reason stale seen)

omit [Disk sigma] in
/-- The entry that a miss is about is not newer than itself. -/
theorem newerEntry_of_seen {entry : CacheEntry alpha}
    (hentry : scene.cache.entries.find? call.keyText = some entry) :
    call.newerEntry now scene (some entry.created) = none := by
  unfold newerEntry
  rw [hentry]
  simp

omit [Disk sigma] in
theorem newerEntry_of_none {seen : Option UInt64}
    (hentry : scene.cache.entries.find? call.keyText = none) :
    call.newerEntry now scene seen = none := by
  unfold newerEntry
  rw [hentry]
  simp

theorem judge_ends (htrust : setup.trust = false) {found : Scene sigma alpha}
    {entry : CacheEntry alpha} (hfinds : call.Finds setup scene found)
    (hentry : found.cache.entries.find? call.keyText = some entry) :
    LookUpEnds setup now call scene
      (run setup now (call.judge setup now found entry).1
        (call.judge setup now found entry).2) := by
  have hnewer : call.newerEntry now found (some entry.created) = none :=
    newerEntry_of_seen hentry
  cases hfresh : entry.isFreshAt now with
  | false =>
      have hjudge : call.judge setup now found entry =
          call.miss found .expired
            (if entry.isServableStaleAt now then some entry.value else none)
            (some entry.created) := by
        simp [judge, htrust, hfresh]
      rw [hjudge, run_missed rfl]
      apply LookUpEnds.missed _ hfinds hnewer
      intro hall
      rw [hall entry hentry] at hfresh
      cases hfresh
  | true =>
      cases hrecords : found.cache.records.find? call.keyText with
      | none =>
          have hjudge : call.judge setup now found entry =
              call.miss found .untracked none (some entry.created) := by
            simp [judge, htrust, hfresh, hrecords]
          rw [hjudge, run_missed rfl]
          exact .missed _ hfinds hnewer fun _ => rfl
      | some files =>
          have hjudge : call.judge setup now found entry =
              (call.goTo (.scanning entry [] false files), found) := by
            simp [judge, htrust, hfresh, hrecords]
          rw [hjudge, run_scanning_eq rfl, hfinds.disk]
          cases hcheck : FileRecords.checkList (Disk.files scene.disk) files with
          | error path => exact .missed _ hfinds hnewer fun _ => rfl
          | ok checked => exact .served hfinds hentry hrecords hcheck

omit [Disk sigma] in
theorem load_eq (hreads : setup.ReadsOnly) :
    call.load setup scene = (call.goTo (.restoring (call.loaded setup scene.disk)), scene) := by
  unfold load loaded
  cases hstore : setup.store with
  | none => rfl
  | some store =>
      have hdisk := hreads store call.keyText scene.disk hstore
      dsimp only
      rw [hdisk]

theorem restore_ends (htrust : setup.trust = false)
    (hentry : scene.cache.entries.find? call.keyText = none) :
    LookUpEnds setup now call scene
      (run setup now (call.restore setup now scene (call.loaded setup scene.disk)).1
        (call.restore setup now scene (call.loaded setup scene.disk)).2) := by
  have hrefl := Finds.refl setup call scene
  have hnewer : call.newerEntry now scene none = none := newerEntry_of_none hentry
  cases hloaded : call.loaded setup scene.disk with
  | error cause =>
      have hfinds : call.Finds setup scene (scene.emit call.keyText (.loadFailed cause.message)) :=
        ⟨rfl, rfl, Or.inl rfl, _, rfl⟩
      have hrestore : call.restore setup now scene (.error cause) =
          call.miss (scene.emit call.keyText (.loadFailed cause.message)) .notCached none none :=
        rfl
      rw [hrestore, run_missed rfl]
      exact .missed _ hfinds hnewer fun _ => rfl
  | ok loaded =>
      cases loaded with
      | none =>
          have hrestore : call.restore setup now scene (.ok none) =
              call.miss scene .notCached none none := rfl
          rw [hrestore, run_missed rfl]
          exact .missed _ hrefl hnewer fun _ => rfl
      | some persisted =>
          rw [restore_of_none hentry]
          apply judge_ends htrust
          · exact ⟨rfl, rfl, Or.inr ⟨persisted, hloaded, rfl⟩, _, rfl⟩
          · exact Table.find?_insert_self ..

theorem run_new_ends (htrust : setup.trust = false) (hreads : setup.ReadsOnly) (now : UInt64)
    (key : CacheKey) (options : CallOptions) (scene : Scene sigma alpha) :
    LookUpEnds setup now (Call.new key options) scene
      ((Call.new key options).run setup now scene) := by
  have hrefl := Finds.refl setup (Call.new key options) scene
  rw [run_of_step rfl]
  have hstep : (Call.new key options).step setup now scene =
      (Call.new key options).openCall setup now scene := rfl
  rw [hstep]
  cases hforce : options.forceFresh with
  | true =>
      have hopen : (Call.new key options).openCall setup now scene =
          (Call.new key options).miss scene .forceFresh none none := by
        unfold openCall
        exact if_pos hforce
      have hnewer : (Call.new key options).newerEntry now scene none = none := by
        unfold newerEntry
        exact if_pos hforce
      rw [hopen, run_missed rfl]
      exact .missed _ hrefl hnewer fun _ => rfl
  | false =>
      have hopen : (Call.new key options).openCall setup now scene = _ := openCall_new hforce
      cases hentry : scene.cache.entries.find? key.text with
      | some entry =>
          rw [hentry] at hopen
          rw [hopen]
          exact judge_ends htrust hrefl hentry
      | none =>
          rw [hentry] at hopen
          rw [hopen, run_of_step rfl]
          have hload : ((Call.new key options).goTo .loading).step setup now scene =
              ((Call.new key options).goTo .loading).load setup scene := rfl
          rw [hload, load_eq hreads, run_of_step rfl]
          exact restore_ends htrust hentry

theorem run_new_of_listed (htrust : setup.trust = false) {key : CacheKey} {options : CallOptions}
    (hforce : options.forceFresh = false) {entry : CacheEntry alpha} {files : List TrackedFile}
    (hentry : scene.cache.entries.find? key.text = some entry)
    (hfresh : entry.isFreshAt now = true)
    (hlisted : scene.cache.records.find? key.text = some files) :
    (Call.new key options).run setup now scene =
      match FileRecords.checkList (Disk.files scene.disk) files with
      | .error path =>
          (Call.new key options).miss scene (.changed path) none (some entry.created)
      | .ok (renewed, moved) =>
          ((Call.new key options).goTo (.done (.ok entry.value)),
            scene.pass key.text renewed moved) := by
  have hopen : (Call.new key options).step setup now scene =
      ((Call.new key options).goTo (.scanning entry [] false files), scene) := by
    refine (openCall_new hforce).trans ?_
    rw [hentry]
    dsimp only
    unfold judge
    have hrecords : scene.cache.records.find? (Call.new key options : Call alpha).keyText =
        some files := hlisted
    rw [htrust, hfresh, hrecords]
    rfl
  rw [run_of_step rfl, hopen, run_scanning_eq rfl]
  rfl

/-!
# Flights
-/

def own? (fs : FileSystem) (path : FilePath) : Option TrackedFile :=
  match TrackedFile.capture fs path with
  | .ok (file, _) => some file
  | .error _ => none

theorem own?_of_read {fs : FileSystem} {path : FilePath} {bytes : ByteArray}
    (h : fs.read path = .ok bytes) :
    exists own, own? fs path = some own ∧ own.path = path ∧ own.Current fs := by
  have hok := TrackedFile.capture_isOk fs path
  unfold own?
  cases hcapture : TrackedFile.capture fs path with
  | error cause =>
      rw [h, hcapture] at hok
      cases hok
  | ok captured =>
      exact ⟨captured.1, rfl, TrackedFile.path_of_capture hcapture, .of_capture hcapture⟩

theorem run_capturing {ticket : Ticket alpha} (hphase : call.phase = .capturing ticket) :
    call.run setup now scene =
      (call.goTo (.computing ticket (own? (Disk.files scene.disk) call.key.path)), scene) := by
  have hpaused : call.isPaused scene = false := by
    unfold isPaused isBlocked
    rw [hphase]
  have hstep : call.step setup now scene = call.capture scene ticket := by
    unfold step
    rw [hphase]
  rw [run_of_step hpaused, hstep]
  unfold capture own? TrackedFile.capture
  cases Fingerprint.read (Disk.files scene.disk) call.key.path with
  | error cause => exact run_of_paused rfl
  | ok fingerprint =>
      have hread : (call.goTo (.reading ticket fingerprint)).step setup now scene =
          call.read scene ticket fingerprint := rfl
      dsimp only
      rw [run_of_step rfl, hread]
      unfold read
      cases (Disk.files scene.disk).read call.key.path with
      | error cause => exact run_of_paused rfl
      | ok bytes => exact run_of_paused rfl

def takeOff (call : Call alpha) (scene : Scene sigma alpha) : Scene sigma alpha :=
  let cache :=
    { scene.cache with
      flights := scene.cache.flights.insert call.keyText scene.cache.nextFlight
      nextFlight := scene.cache.nextFlight + 1 }
  { scene with cache := cache }

theorem resume_missed {stale : Option alpha} {seen : Option UInt64}
    (hphase : call.phase = .missed stale seen)
    (hfree : scene.cache.flights.find? call.keyText = none)
    (hnewer : call.newerEntry now scene seen = none) :
    call.resume setup now scene =
      (call.goTo (.computing ⟨scene.cache.nextFlight, stale⟩
          (own? (Disk.files scene.disk) call.key.path)),
        call.takeOff scene) := by
  have hstep : call.step setup now scene =
      (call.goTo (.capturing ⟨scene.cache.nextFlight, stale⟩), call.takeOff scene) := by
    have hstill : call.newerEntry now (call.takeOff scene) seen = none := hnewer
    unfold step
    rw [hphase]
    dsimp only [enter]
    rw [hfree]
    dsimp only
    unfold takeOff at hstill
    rw [hstill]
    rfl
  unfold resume
  rw [hstep]
  exact run_capturing rfl

/-- What stays in memory while a call lands its flight: all but the flight and entries of
other keys. -/
structure Keeps (key : String) (flight : Nat) (scene next : Scene sigma alpha) : Prop where
  entry : next.cache.entries.find? key = scene.cache.entries.find? key
  listed : next.cache.records.find? key = scene.cache.records.find? key
  others : forall other entry, next.cache.entries.find? other = some entry ->
    scene.cache.entries.find? other = some entry
  flights : next.cache.flights =
    if scene.cache.flights.find? key = some flight then scene.cache.flights.erase key
    else scene.cache.flights

theorem run_land (setup : CacheSetup sigma alpha) (now : UInt64) (call : Call alpha)
    (scene : Scene sigma alpha) (ticket : Ticket alpha) (result : Except Error alpha) :
    exists next,
      (call.land scene ticket result).1.run setup now (call.land scene ticket result).2 =
        (call.goTo (.done (settle result ticket.stale)), next) ∧
      Keeps call.keyText ticket.flight scene next := by
  let landed := (call.land scene ticket result).2
  have hresult : landed.cache.results.find? ticket.flight = some result :=
    Table.find?_insert_self ..
  have hpaused : (call.goTo (.waiting ticket)).isPaused landed = false := by
    change (!landed.cache.results.contains ticket.flight) = false
    unfold Table.contains
    rw [hresult]
    rfl
  have hstep : (call.goTo (.waiting ticket)).step setup now landed =
      (call.goTo (.waiting ticket)).receive landed ticket := rfl
  have hkept : forall next : Scene sigma alpha,
      next.cache = release landed.cache call.keyText ticket.flight ->
      Keeps call.keyText ticket.flight scene next := by
    intro next hnext
    have hentries : next.cache.entries = scene.cache.entries := by
      rw [hnext]
      unfold release
      split <;> rfl
    have hrecords : next.cache.records = scene.cache.records := by
      rw [hnext]
      unfold release
      split <;> rfl
    refine ⟨by rw [hentries], by rw [hrecords], fun other entry h => ?_, ?_⟩
    · rw [hentries] at h
      exact h
    · have hflights : landed.cache.flights = scene.cache.flights := rfl
      rw [hnext, ← hflights]
      unfold release
      split <;> rfl
  change exists next, run setup now (call.goTo (.waiting ticket)) landed = _ ∧ _
  rw [run_of_step hpaused, hstep]
  unfold receive
  rw [hresult]
  cases result with
  | ok value =>
      refine ⟨_, run_done rfl, hkept _ rfl⟩
  | error cause =>
      cases hstale : ticket.stale with
      | none => exact ⟨_, run_done rfl, hkept _ rfl⟩
      | some value => exact ⟨_, run_done rfl, hkept _ rfl⟩

/-!
# Storing
-/

omit [Disk sigma] in
/-- A key of the file that is not the call's own may be dropped before the flight lands. -/
theorem Keeps.of_forget {key : String} {flight : Nat} {before next : Scene sigma alpha}
    (h : Keeps key flight before next) (hflights : before.cache.flights = scene.cache.flights)
    (hcache : (before.cache.entries = scene.cache.entries ∧
        before.cache.records = scene.cache.records) ∨
      exists previous, key ≠ previous ∧
        before.cache.entries = scene.cache.entries.erase previous ∧
        before.cache.records = scene.cache.records.erase previous) :
    Keeps key flight scene next := by
  rcases hcache with ⟨hentries, hrecords⟩ | ⟨previous, hne, hentries, hrecords⟩
  · constructor
    case entry => rw [h.entry, hentries]
    case listed => rw [h.listed, hrecords]
    case others =>
      rw [← hentries]
      exact h.others
    case flights => rw [h.flights, hflights]
  · constructor
    case entry => rw [h.entry, hentries, Table.find?_erase_of_ne _ hne]
    case listed => rw [h.listed, hrecords, Table.find?_erase_of_ne _ hne]
    case others =>
      intro other entry hentry
      have hbefore := h.others other entry hentry
      rw [hentries] at hbefore
      exact Table.find?_of_erase hbefore
    case flights => rw [h.flights, hflights]

theorem run_removing (setup : CacheSetup sigma alpha) (now : UInt64) (scene : Scene sigma alpha)
    {ticket : Ticket alpha} {value : alpha} {previous : String}
    (hphase : call.phase = .removing ticket value previous) :
    exists next, call.run setup now scene = (call.goTo (.done (.ok value)), next) ∧
      Keeps call.keyText ticket.flight scene next := by
  have hpaused : call.isPaused scene = false := by
    unfold isPaused isBlocked
    rw [hphase]
  let outcome := (scene.removeStored setup previous).1
  let removed := (scene.removeStored setup previous).2
  let reported := (removed.emitFailure previous outcome).emit previous (.superseded call.keyText)
  have hcache : reported.cache = scene.cache := by
    change (removed.emitFailure previous outcome).cache = scene.cache
    rw [emitFailure_cache]
    unfold removed Scene.removeStored
    split <;> rfl
  have hremove : call.step setup now scene =
      (call.goTo (.removed ticket value previous outcome), removed) := by
    unfold step
    rw [hphase]
    rfl
  have hreport : (call.goTo (.removed ticket value previous outcome)).step setup now removed =
      call.land reported ticket (.ok value) := rfl
  rw [run_of_step hpaused, hremove, run_of_step rfl, hreport]
  obtain ⟨next, hrun, hkeeps⟩ := run_land setup now call reported ticket (.ok value)
  refine ⟨next, hrun, hkeeps.of_forget ?_ (Or.inl ⟨?_, ?_⟩)⟩ <;>
  · rw [hcache]

theorem run_saved (setup : CacheSetup sigma alpha) (now : UInt64) (scene : Scene sigma alpha)
    {ticket : Ticket alpha} {value : alpha} {outcome : Except Error Unit}
    (hphase : call.phase = .saved ticket value outcome) :
    exists next, call.run setup now scene = (call.goTo (.done (.ok value)), next) ∧
      Keeps call.keyText ticket.flight scene next := by
  have hpaused : call.isPaused scene = false := by
    unfold isPaused isBlocked
    rw [hphase]
  have hstep : call.step setup now scene = call.supersede scene ticket value outcome := by
    unfold step
    rw [hphase]
  let reported := scene.emitFailure call.keyText outcome
  let cache :=
    { scene.cache with
      currentKeys := scene.cache.currentKeys.insert call.key.path.components call.keyText }
  have hcache : reported.cache = scene.cache := emitFailure_cache ..
  rw [run_of_step hpaused, hstep]
  cases hprevious : scene.cache.currentKeys.find? call.key.path.components with
  | none =>
      have hsupersede : call.supersede scene ticket value outcome =
          call.land { reported with cache := cache } ticket (.ok value) := by
        unfold supersede
        dsimp only
        rw [hcache, hprevious]
      obtain ⟨next, hrun, hkeeps⟩ :=
        run_land setup now call { reported with cache := cache } ticket (.ok value)
      rw [hsupersede]
      exact ⟨next, hrun, hkeeps.of_forget rfl (Or.inl ⟨rfl, rfl⟩)⟩
  | some previous =>
      by_cases hsame : previous = call.keyText
      · have hsupersede : call.supersede scene ticket value outcome =
            call.land { reported with cache := cache } ticket (.ok value) := by
          unfold supersede
          dsimp only
          rw [hcache, hprevious]
          exact if_pos hsame
        obtain ⟨next, hrun, hkeeps⟩ :=
          run_land setup now call { reported with cache := cache } ticket (.ok value)
        rw [hsupersede]
        exact ⟨next, hrun, hkeeps.of_forget rfl (Or.inl ⟨rfl, rfl⟩)⟩
      · have hsupersede : call.supersede scene ticket value outcome =
            (call.goTo (.removing ticket value previous),
              { reported with cache := cache.forget previous }) := by
          unfold supersede
          dsimp only
          rw [hcache, hprevious]
          exact if_neg hsame
        rw [hsupersede]
        have hremoving : (call.goTo (.removing ticket value previous)).phase =
            .removing ticket value previous := rfl
        obtain ⟨next, hrun, hkeeps⟩ :=
          run_removing setup now { reported with cache := cache.forget previous } hremoving
        exact ⟨next, hrun, hkeeps.of_forget rfl (Or.inr ⟨previous, Ne.symm hsame, rfl, rfl⟩)⟩

theorem run_saving (setup : CacheSetup sigma alpha) (now : UInt64) (scene : Scene sigma alpha)
    {ticket : Ticket alpha} {persisted : PersistedEntry alpha}
    (hphase : call.phase = .saving ticket persisted) :
    exists next, call.run setup now scene = (call.goTo (.done (.ok persisted.entry.value)), next) ∧
      Keeps call.keyText ticket.flight scene next := by
  have hpaused : call.isPaused scene = false := by
    unfold isPaused isBlocked
    rw [hphase]
  have hsaved : forall outcome disk, exists next,
      (call.goTo (.saved ticket persisted.entry.value outcome)).run setup now
          { scene with disk := disk } = (call.goTo (.done (.ok persisted.entry.value)), next) ∧
        Keeps call.keyText ticket.flight scene next := by
    intro outcome disk
    have hphase : (call.goTo (.saved ticket persisted.entry.value outcome)).phase =
        .saved ticket persisted.entry.value outcome := rfl
    obtain ⟨next, hrun, hkeeps⟩ := run_saved setup now { scene with disk := disk } hphase
    exact ⟨next, hrun, hkeeps.of_forget rfl (Or.inl ⟨rfl, rfl⟩)⟩
  rw [run_of_step hpaused]
  unfold step
  rw [hphase]
  dsimp only [save]
  cases setup.store with
  | none => exact hsaved (.ok ()) scene.disk
  | some store =>
      exact hsaved (store.save persisted scene.disk).1 (store.save persisted scene.disk).2

end Call

/-!
# Getting or computing
-/

namespace Scene

variable {sigma alpha : Type} [Disk sigma] {setup : CacheSetup sigma alpha} {now : UInt64}
  {key : CacheKey} {options : CallOptions} {scene found : Scene sigma alpha}

theorem getOrCompute_of_done {call : Call alpha} {next : Scene sigma alpha}
    {result : Except Error alpha}
    (hrun : (Call.new key options).run setup now scene = (call, next))
    (hphase : call.phase = .done result)
    (compute : sigma -> Except Error (Computed alpha) × sigma) :
    scene.getOrCompute setup now key options compute = (result, next) := by
  have hstep : call.step setup now next = (call, next) := by
    unfold Call.step
    rw [hphase]
  have hresume : call.resume setup now next = (call, next) := by
    unfold Call.resume
    rw [hstep]
    exact Call.run_done hphase
  unfold getOrCompute Call.result?
  rw [hrun]
  dsimp only
  rw [hresume]
  dsimp only
  rw [hphase]
  rfl

structure Departs (setup : CacheSetup sigma alpha) (now : UInt64) (key : CacheKey)
    (options : CallOptions) (scene found : Scene sigma alpha) (stale : Option alpha) : Prop where
  run : exists reason seen,
    (Call.new key options).run setup now scene =
        (Call.new key options).miss found reason stale seen ∧
      (Call.new key options).newerEntry now found seen = none
  free : forall other, found.cache.flights.find? other = none

structure Aloft (key : String) (flight : Nat) (found aloft : Scene sigma alpha) : Prop where
  disk : aloft.disk = found.disk
  entries : aloft.cache.entries = found.cache.entries
  records : aloft.cache.records = found.cache.records
  taken : aloft.cache.flights.find? key = some flight
  only : forall other, (aloft.cache.flights.erase key).find? other = none
  events : exists reason, aloft.events = found.events ++ [(key, .miss reason)]

theorem Departs.getOrCompute_eq {stale : Option alpha}
    (h : Departs setup now key options scene found stale) :
    exists (ticket : Ticket alpha) (aloft : Scene sigma alpha),
      ticket.stale = stale ∧ Aloft key.text ticket.flight found aloft ∧
      forall compute, scene.getOrCompute setup now key options compute =
        let call : Call alpha :=
          ⟨key, options, .computing ticket (Call.own? (Disk.files found.disk) key.path)⟩
        let landing :=
          call.complete now { aloft with disk := (compute found.disk).2 } (compute found.disk).1
        let ended := landing.1.run setup now landing.2
        (ended.1.result?.getD (.error abandoned), ended.2) := by
  rcases h.run with ⟨reason, seen, hrun, hnewer⟩
  let call : Call alpha := Call.new key options
  let missed := (call.miss found reason stale seen).2
  let aloft := (call.goTo (.missed stale seen)).takeOff missed
  let ticket : Ticket alpha := ⟨missed.cache.nextFlight, stale⟩
  have hresume : (call.goTo (.missed stale seen)).resume setup now missed = _ :=
    Call.resume_missed rfl (h.free key.text) hnewer
  have haloft : Aloft key.text ticket.flight found aloft := by
    refine ⟨rfl, rfl, rfl, Table.find?_insert_self .., ?_, reason, rfl⟩
    intro other
    by_cases hother : other = key.text
    · rw [hother]
      exact Table.find?_erase_self ..
    · rw [Table.find?_erase_of_ne _ hother]
      exact (Table.find?_insert_of_ne _ _ hother).trans (h.free other)
  refine ⟨ticket, aloft, rfl, haloft, ?_⟩
  intro compute
  have hmiss : call.miss found reason stale seen = (call.goTo (.missed stale seen), missed) := rfl
  unfold getOrCompute
  rw [hrun, hmiss]
  dsimp only
  rw [hresume]
  rfl

omit [Disk sigma] in
theorem Aloft.landed {key : String} {flight : Nat} {aloft before next : Scene sigma alpha}
    (h : Aloft key flight found aloft) (hkeeps : Call.Keeps key flight before next)
    (hflights : before.cache.flights = aloft.cache.flights) (other : String) :
    next.cache.flights.find? other = none := by
  rw [hkeeps.flights, hflights, h.taken, if_pos rfl]
  exact h.only other

theorem Departs.failed {stale : Option alpha}
    (h : Departs setup now key options scene found stale)
    {compute : sigma -> Except Error (Computed alpha) × sigma} {cause : Error}
    (houtcome : (compute found.disk).1 = .error cause) :
    exists next,
      scene.getOrCompute setup now key options compute = (settle (.error cause) stale, next) ∧
      (forall other entry, next.cache.entries.find? other = some entry ->
        found.cache.entries.find? other = some entry) ∧
      forall other, next.cache.flights.find? other = none := by
  obtain ⟨ticket, aloft, hstale, haloft, hget⟩ := h.getOrCompute_eq
  let call : Call alpha :=
    ⟨key, options, .computing ticket (Call.own? (Disk.files found.disk) key.path)⟩
  let failed := Scene.emit { aloft with disk := (compute found.disk).2 } key.text
    (.computeFailed cause.message)
  obtain ⟨next, hrun, hkeeps⟩ := Call.run_land setup now call failed ticket (.error cause)
  have hcomplete : call.complete now { aloft with disk := (compute found.disk).2 }
      (.error cause) = call.land failed ticket (.error cause) := rfl
  refine ⟨next, ?_, ?_, haloft.landed hkeeps rfl⟩
  · rw [hget, houtcome]
    dsimp only
    rw [hcomplete, hrun, hstale]
    rfl
  · intro other entry hentry
    rw [← haloft.entries]
    exact hkeeps.others other entry hentry

structure Stores (key : CacheKey) (entry : CacheEntry alpha) (files : Option (List TrackedFile))
    (found next : Scene sigma alpha) : Prop where
  stored : next.cache.entries.find? key.text = some entry
  listed : next.cache.records.find? key.text = files
  others : forall other old, next.cache.entries.find? other = some old ->
    old = entry ∨ found.cache.entries.find? other = some old
  free : forall other, next.cache.flights.find? other = none
  events : exists reason,
    found.events ++ [(key.text, .miss reason), (key.text, .computed)] <+: next.events

theorem Departs.computed {stale : Option alpha}
    (h : Departs setup now key options scene found stale)
    {compute : sigma -> Except Error (Computed alpha) × sigma} {computed : Computed alpha}
    (houtcome : (compute found.disk).1 = .ok computed) :
    exists next created,
      scene.getOrCompute setup now key options compute = (.ok computed.value, next) ∧
      Stores key (.new computed.value created options.ttl options.grace)
        ((Call.own? (Disk.files found.disk) key.path).map fun own =>
          Call.addFiles [own] computed.dependencies)
        found next := by
  obtain ⟨ticket, aloft, hstale, haloft, hget⟩ := h.getOrCompute_eq
  let own := Call.own? (Disk.files found.disk) key.path
  let call : Call alpha := ⟨key, options, .computing ticket own⟩
  let kept := call.keep now aloft.cache own computed
  let entry := kept.1.entry
  let stored : Scene sigma alpha :=
    Scene.emit
      { Scene.emit { aloft with disk := (compute found.disk).2 } key.text .computed with
        cache := kept.2 }
      key.text (.stored entry.created)
  have hcomplete : call.complete now { aloft with disk := (compute found.disk).2 }
      (.ok computed) = (call.goTo (.saving ticket kept.1), stored) := rfl
  have hsaving : (call.goTo (.saving ticket kept.1)).phase = .saving ticket kept.1 := rfl
  obtain ⟨next, hrun, hkeeps⟩ := Call.run_saving setup now stored hsaving
  refine ⟨next, entry.created, ?_, ?_⟩
  · rw [hget, houtcome]
    dsimp only
    rw [hcomplete]
    dsimp only
    rw [hrun]
    rfl
  · constructor
    case stored => exact hkeeps.entry.trans (Table.find?_insert_self ..)
    case listed =>
      refine hkeeps.listed.trans ?_
      change (if own.isSome then aloft.cache.records.insert key.text _
        else aloft.cache.records.erase key.text).find? key.text = own.map _
      cases own with
      | none => exact Table.find?_erase_self ..
      | some file => exact Table.find?_insert_self ..
    case others =>
      intro other old hold
      rw [← haloft.entries]
      rcases Table.find?_insert_cases (hkeeps.others other old hold) with hold | ⟨_, hnew⟩
      · exact Or.inr hold
      · exact Or.inl hnew
    case free => exact haloft.landed hkeeps rfl
    case events =>
      obtain ⟨reason, hevents⟩ := haloft.events
      have hmore := Call.run_events setup now (call.goTo (.saving ticket kept.1)) stored
      rw [hrun] at hmore
      refine ⟨reason, List.IsPrefix.trans ?_ hmore⟩
      change _ <+: aloft.events ++ [_] ++ [_]
      rw [hevents]
      simp

/-!
# Caches between calls
-/

structure Settled (cache : Cache alpha) : Prop where
  free : forall key, cache.flights.find? key = none
  lasting : forall key entry, cache.entries.find? key = some entry -> entry.ttl = none

theorem settled_empty : Settled (Cache.empty : Cache alpha) :=
  ⟨fun _ => rfl, nofun⟩

omit [Disk sigma] in
theorem Settled.finds {call : Call alpha} (h : Settled scene.cache)
    (hloaded : forall persisted, call.loaded setup scene.disk = .ok (some persisted) ->
      persisted.entry.ttl = none)
    (hfinds : call.Finds setup scene found) : Settled found.cache := by
  constructor
  case free =>
    rw [hfinds.flights]
    exact h.free
  case lasting =>
    intro other entry hentry
    rcases hfinds.entries with hsame | ⟨persisted, hfound, hinsert⟩
    · rw [hsame] at hentry
      exact h.lasting other entry hentry
    · rw [hinsert] at hentry
      rcases Table.find?_insert_cases hentry with hold | ⟨_, rfl⟩
      · exact h.lasting other entry hold
      · exact hloaded persisted hfound

omit [Disk sigma] in
theorem Settled.isFreshAt {cache : Cache alpha} (h : Settled cache) {other : String}
    {entry : CacheEntry alpha} (hentry : cache.entries.find? other = some entry)
    (now : UInt64) : entry.isFreshAt now = true := by
  unfold CacheEntry.isFreshAt
  rw [h.lasting other entry hentry]

/-- The ways of a whole call: a hit whatever the computation would come to, or a
computation with nothing expired to fall back on. -/
inductive Way (setup : CacheSetup sigma alpha) (now : UInt64) (key : CacheKey)
    (options : CallOptions) (scene : Scene sigma alpha) : Prop where
  | served {found : Scene sigma alpha} {entry : CacheEntry alpha}
      {files renewed : List TrackedFile} {moved : Bool} :
      (Call.new key options).Finds setup scene found -> Settled found.cache ->
      found.cache.entries.find? key.text = some entry ->
      found.cache.records.find? key.text = some files ->
      FileRecords.checkList (Disk.files scene.disk) files = .ok (renewed, moved) ->
      (forall compute, scene.getOrCompute setup now key options compute =
        (.ok entry.value, found.pass key.text renewed moved)) ->
      Way setup now key options scene
  | departs {found : Scene sigma alpha} :
      (Call.new key options).Finds setup scene found -> Settled found.cache ->
      Departs setup now key options scene found none -> Way setup now key options scene

theorem Settled.way (hsettled : Settled scene.cache) (htrust : setup.trust = false)
    (hreads : setup.ReadsOnly) (now : UInt64) (key : CacheKey) (options : CallOptions)
    (hloaded : forall persisted,
      (Call.new key options).loaded setup scene.disk = .ok (some persisted) ->
        persisted.entry.ttl = none) :
    Way setup now key options scene := by
  have hends := Call.run_new_ends htrust hreads now key options scene
  generalize hrun : (Call.new key options).run setup now scene = ended at hends
  cases hends with
  | served hfinds hentry hrecords hcheck =>
      exact .served hfinds (hsettled.finds hloaded hfinds) hentry hrecords hcheck
        (getOrCompute_of_done hrun rfl)
  | missed reason hfinds hnewer hstale =>
      have hfound := hsettled.finds hloaded hfinds
      rw [hstale fun entry hentry => hfound.isFreshAt hentry now] at hrun
      exact .departs hfinds hfound ⟨⟨reason, _, hrun, hnewer⟩, hfound.free⟩

theorem Settled.getOrCompute (hsettled : Settled scene.cache) (htrust : setup.trust = false)
    (hreads : setup.ReadsOnly) (httl : options.ttl = none)
    (hloaded : forall persisted,
      (Call.new key options).loaded setup scene.disk = .ok (some persisted) ->
        persisted.entry.ttl = none)
    (compute : sigma -> Except Error (Computed alpha) × sigma) :
    Settled (scene.getOrCompute setup now key options compute).2.cache := by
  cases hsettled.way htrust hreads now key options hloaded with
  | served _ hfound _ _ _ hget =>
      rw [hget]
      exact ⟨hfound.free, hfound.lasting⟩
  | @departs found _ hfound hdeparts =>
      cases houtcome : (compute found.disk).1 with
      | error cause =>
          obtain ⟨next, hget, hentries, hfree⟩ := hdeparts.failed houtcome
          rw [hget]
          refine ⟨hfree, fun other entry hentry => ?_⟩
          exact hfound.lasting other entry (hentries other entry hentry)
      | ok computed =>
          obtain ⟨next, created, hget, hstores⟩ := hdeparts.computed houtcome
          rw [hget]
          refine ⟨hstores.free, fun other entry hentry => ?_⟩
          rcases hstores.others other entry hentry with rfl | hold
          · change options.ttl.map _ = none
            rw [httl]
            rfl
          · exact hfound.lasting other entry hold

end Scene
end LessonPress

import LessonPress.Cache.Basic

/-!
# Calls

## Getting a cached value or computing it, step by step

A call looks its key up, in memory first and then in the store, and serves an
entry only if the entry is fresh and the files behind it have not changed.  Else
it joins the flight of its key, or takes one itself, computes and stores the
value.  A step is what happens between two points at which other calls may run:
it uses the disk or the cache, hardly ever both.
-/

namespace LessonPress

structure CallOptions where
  ttl : Option Duration
  grace : Duration
  forceFresh : Bool
deriving DecidableEq, Inhabited

structure Computed (alpha : Type) where
  value : alpha
  dependencies : List TrackedFile

/-- A place in a flight, with the expired value that may stand in for a failure. -/
structure Ticket (alpha : Type) where
  flight : Nat
  stale : Option alpha

inductive Phase (alpha : Type) where
  | opening
  | loading
  | restoring (loaded : Except Error (Option (PersistedEntry alpha)))
  | scanning (entry : CacheEntry alpha) (checked : List TrackedFile) (touched : Bool)
      (pending : List TrackedFile)
  | hashing (entry : CacheEntry alpha) (checked : List TrackedFile)
      (file : TrackedFile) (current : Fingerprint) (pending : List TrackedFile)
  | missed (stale : Option alpha) (seen : Option UInt64)
  | capturing (ticket : Ticket alpha)
  | reading (ticket : Ticket alpha) (fingerprint : Fingerprint)
  | computing (ticket : Ticket alpha) (primary : Option TrackedFile)
  | saving (ticket : Ticket alpha) (persisted : PersistedEntry alpha)
  | saved (ticket : Ticket alpha) (value : alpha) (outcome : Except Error Unit)
  | removing (ticket : Ticket alpha) (value : alpha) (previous : String)
  | removed (ticket : Ticket alpha) (value : alpha) (previous : String)
      (outcome : Except Error Unit)
  | waiting (ticket : Ticket alpha)
  | done (result : Except Error alpha)

structure Call (alpha : Type) where
  key : CacheKey
  options : CallOptions
  phase : Phase alpha

namespace Call

variable {sigma alpha : Type}

def new (key : CacheKey) (options : CallOptions) : Call alpha :=
  ⟨key, options, .opening⟩

def goTo (call : Call alpha) (phase : Phase alpha) : Call alpha :=
  { call with phase := phase }

def keyText (call : Call alpha) : String :=
  call.key.text

def result? (call : Call alpha) : Option (Except Error alpha) :=
  match call.phase with
  | .done result => some result
  | _ => none

/-!
# Looking up
-/

def miss (call : Call alpha) (scene : Scene sigma alpha) (reason : MissReason)
    (stale : Option alpha) (seen : Option UInt64) : Call alpha × Scene sigma alpha :=
  (call.goTo (.missed stale seen), scene.emit call.keyText (.miss reason))

def judge (setup : CacheSetup sigma alpha) (now : UInt64) (call : Call alpha)
    (scene : Scene sigma alpha) (entry : CacheEntry alpha) : Call alpha × Scene sigma alpha :=
  if setup.trust then
    (call.goTo (.done (.ok entry.value)), scene.emit call.keyText .trustedHit)
  else if !entry.isFreshAt now then
    let stale := if entry.isServableStaleAt now then some entry.value else none
    call.miss scene .expired stale (some entry.created)
  else
    match scene.cache.records.find? call.keyText with
    | none => call.miss scene .untracked none (some entry.created)
    | some tracked => (call.goTo (.scanning entry [] false tracked), scene)

def openCall (setup : CacheSetup sigma alpha) (now : UInt64) (call : Call alpha)
    (scene : Scene sigma alpha) : Call alpha × Scene sigma alpha :=
  if call.options.forceFresh then
    call.miss scene .forceFresh none none
  else
    match scene.cache.entries.find? call.keyText with
    | some entry => call.judge setup now scene entry
    | none => (call.goTo .loading, scene)

def load (setup : CacheSetup sigma alpha) (call : Call alpha) (scene : Scene sigma alpha) :
    Call alpha × Scene sigma alpha :=
  match setup.store with
  | none => (call.goTo (.restoring (.ok none)), scene)
  | some store =>
      let (loaded, disk) := store.load call.keyText scene.disk
      (call.goTo (.restoring loaded), { scene with disk := disk })

/-- Puts a loaded entry into memory, unless another call has put one there. -/
def restore (setup : CacheSetup sigma alpha) (now : UInt64) (call : Call alpha)
    (scene : Scene sigma alpha) (loaded : Except Error (Option (PersistedEntry alpha))) :
    Call alpha × Scene sigma alpha :=
  match loaded with
  | .error cause =>
      call.miss (scene.emit call.keyText (.loadFailed cause.message)) .notCached none none
  | .ok none => call.miss scene .notCached none none
  | .ok (some persisted) =>
      match scene.cache.entries.find? call.keyText with
      | some entry => call.judge setup now scene entry
      | none =>
          let cache :=
            { scene.cache with
              entries := scene.cache.entries.insert call.keyText persisted.entry
              records := scene.cache.records.insert call.keyText persisted.tracked }
          let scene := { scene with cache := cache }
          call.judge setup now (scene.emit call.keyText .restored) persisted.entry

def changed (call : Call alpha) (scene : Scene sigma alpha) (entry : CacheEntry alpha)
    (file : TrackedFile) : Call alpha × Scene sigma alpha :=
  call.miss scene (.changed file.path) none (some entry.created)

def scan [Disk sigma] (call : Call alpha) (scene : Scene sigma alpha)
    (entry : CacheEntry alpha) (checked : List TrackedFile) (touched : Bool)
    (pending : List TrackedFile) : Call alpha × Scene sigma alpha :=
  match pending with
  | [] =>
      let records := scene.cache.records
      let cache :=
        { scene.cache with
          records := if touched then records.insert call.keyText checked else records }
      let scene := { scene with cache := cache }
      (call.goTo (.done (.ok entry.value)), scene.emit call.keyText .hit)
  | file :: pending =>
      match file.glance (Fingerprint.read (Disk.files scene.disk) file.path) with
      | .same => (call.goTo (.scanning entry (checked ++ [file]) touched pending), scene)
      | .moved current =>
          (call.goTo (.hashing entry checked file current pending), scene)
      | .changed => call.changed scene entry file

def compare [Disk sigma] (call : Call alpha) (scene : Scene sigma alpha)
    (entry : CacheEntry alpha) (checked : List TrackedFile) (file : TrackedFile)
    (current : Fingerprint) (pending : List TrackedFile) : Call alpha × Scene sigma alpha :=
  match file.refresh current ((Disk.files scene.disk).read file.path) with
  | some updated => (call.goTo (.scanning entry (checked ++ [updated]) true pending), scene)
  | none => call.changed scene entry file

/-!
# Flights
-/

def land (call : Call alpha) (scene : Scene sigma alpha) (ticket : Ticket alpha)
    (result : Except Error alpha) : Call alpha × Scene sigma alpha :=
  let cache := { scene.cache with results := scene.cache.results.insert ticket.flight result }
  (call.goTo (.waiting ticket), { scene with cache := cache })

/-- An entry that another call has stored since the lookup. -/
def newerEntry (now : UInt64) (call : Call alpha) (scene : Scene sigma alpha)
    (seen : Option UInt64) : Option (CacheEntry alpha) :=
  if call.options.forceFresh then
    none
  else
    match scene.cache.entries.find? call.keyText with
    | none => none
    | some entry =>
        if some entry.created ≠ seen ∧ entry.isFreshAt now then some entry else none

def enter (now : UInt64) (call : Call alpha) (scene : Scene sigma alpha) (stale : Option alpha)
    (seen : Option UInt64) : Call alpha × Scene sigma alpha :=
  match scene.cache.flights.find? call.keyText with
  | some flight =>
      (call.goTo (.waiting ⟨flight, stale⟩), scene.emit call.keyText .joined)
  | none =>
      let ticket := ⟨scene.cache.nextFlight, stale⟩
      let cache :=
        { scene.cache with
          flights := scene.cache.flights.insert call.keyText ticket.flight
          nextFlight := scene.cache.nextFlight + 1 }
      let scene := { scene with cache := cache }
      match call.newerEntry now scene seen with
      | some entry => call.land (scene.emit call.keyText .hit) ticket (.ok entry.value)
      | none => (call.goTo (.capturing ticket), scene)

def capture [Disk sigma] (call : Call alpha) (scene : Scene sigma alpha)
    (ticket : Ticket alpha) : Call alpha × Scene sigma alpha :=
  match Fingerprint.read (Disk.files scene.disk) call.key.path with
  | .ok fingerprint => (call.goTo (.reading ticket fingerprint), scene)
  | .error _ => (call.goTo (.computing ticket none), scene)

def read [Disk sigma] (call : Call alpha) (scene : Scene sigma alpha) (ticket : Ticket alpha)
    (fingerprint : Fingerprint) : Call alpha × Scene sigma alpha :=
  match (Disk.files scene.disk).read call.key.path with
  | .ok bytes => (call.goTo (.computing ticket (some (.ofBytes fingerprint bytes))), scene)
  | .error _ => (call.goTo (.computing ticket none), scene)

/-!
# Storing
-/

def addFiles (tracked : List TrackedFile) : List TrackedFile -> List TrackedFile
  | [] => tracked
  | file :: rest =>
      if tracked.any fun other => other.path.same file.path then
        addFiles tracked rest
      else
        addFiles (tracked ++ [file]) rest

/-- The files that an entry is tracked by: none if the key's own file could not be
captured. -/
def trackedFiles (primary : Option TrackedFile) (dependencies : List TrackedFile) :
    List TrackedFile :=
  match primary with
  | none => []
  | some file => addFiles [file] dependencies

def keep (now : UInt64) (call : Call alpha) (cache : Cache alpha)
    (primary : Option TrackedFile) (computed : Computed alpha) :
    PersistedEntry alpha × Cache alpha :=
  let previous := (cache.entries.find? call.keyText).map CacheEntry.created
  let entry :=
    CacheEntry.new computed.value (CacheEntry.nextCreated now previous)
      call.options.ttl call.options.grace
  let tracked := trackedFiles primary computed.dependencies
  (⟨call.keyText, entry, tracked⟩,
    { cache with
      entries := cache.entries.insert call.keyText entry
      records :=
        if primary.isSome then cache.records.insert call.keyText tracked
        else cache.records.erase call.keyText })

def complete (now : UInt64) (call : Call alpha) (scene : Scene sigma alpha)
    (outcome : Except Error (Computed alpha)) : Call alpha × Scene sigma alpha :=
  match call.phase with
  | .computing ticket primary =>
      match outcome with
      | .error cause =>
          call.land (scene.emit call.keyText (.computeFailed cause.message)) ticket (.error cause)
      | .ok computed =>
          let scene := scene.emit call.keyText .computed
          let (persisted, cache) := call.keep now scene.cache primary computed
          let scene := { scene with cache := cache }
          (call.goTo (.saving ticket persisted),
            scene.emit call.keyText (.stored persisted.entry.created))
  | _ => (call, scene)

def save (setup : CacheSetup sigma alpha) (call : Call alpha) (scene : Scene sigma alpha)
    (ticket : Ticket alpha) (persisted : PersistedEntry alpha) :
    Call alpha × Scene sigma alpha :=
  match setup.store with
  | none => (call.goTo (.saved ticket persisted.entry.value (.ok ())), scene)
  | some store =>
      let (outcome, disk) := store.save persisted scene.disk
      (call.goTo (.saved ticket persisted.entry.value outcome), { scene with disk := disk })

/-- Makes the key the current one of its file and drops the one before it from
memory. -/
def supersede (call : Call alpha) (scene : Scene sigma alpha) (ticket : Ticket alpha)
    (value : alpha) (outcome : Except Error Unit) : Call alpha × Scene sigma alpha :=
  let scene := scene.emitFailure call.keyText outcome
  let components := call.key.path.components
  let previous := scene.cache.currentKeys.find? components
  let cache :=
    { scene.cache with
      currentKeys := scene.cache.currentKeys.insert components call.keyText }
  match previous with
  | none => call.land { scene with cache := cache } ticket (.ok value)
  | some key =>
      if key = call.keyText then
        call.land { scene with cache := cache } ticket (.ok value)
      else
        (call.goTo (.removing ticket value key), { scene with cache := cache.forget key })

def remove (setup : CacheSetup sigma alpha) (call : Call alpha) (scene : Scene sigma alpha)
    (ticket : Ticket alpha) (value : alpha) (previous : String) :
    Call alpha × Scene sigma alpha :=
  let (outcome, scene) := scene.removeStored setup previous
  (call.goTo (.removed ticket value previous outcome), scene)

def reportSuperseded (call : Call alpha) (scene : Scene sigma alpha) (ticket : Ticket alpha)
    (value : alpha) (previous : String) (outcome : Except Error Unit) :
    Call alpha × Scene sigma alpha :=
  let scene := scene.emitFailure previous outcome
  call.land (scene.emit previous (.superseded call.keyText)) ticket (.ok value)

/-!
# Answering
-/

/-- Releases the slot of a flight, unless a newer flight has taken it. -/
def release (cache : Cache alpha) (key : String) (flight : Nat) : Cache alpha :=
  if cache.flights.find? key = some flight then
    { cache with flights := cache.flights.erase key }
  else
    cache

def receive (call : Call alpha) (scene : Scene sigma alpha) (ticket : Ticket alpha) :
    Call alpha × Scene sigma alpha :=
  match scene.cache.results.find? ticket.flight with
  | none => (call, scene)
  | some result =>
      let scene := { scene with cache := release scene.cache call.keyText ticket.flight }
      match result, ticket.stale with
      | .error _, some value =>
          (call.goTo (.done (.ok value)), scene.emit call.keyText .servedStale)
      | result, _ => (call.goTo (.done result), scene)

/-!
# Steps
-/

/-- Whether the call has to wait: for a computation, for the result of a flight,
or because it is done. -/
def isBlocked (call : Call alpha) (scene : Scene sigma alpha) : Bool :=
  match call.phase with
  | .computing _ _ => true
  | .waiting ticket => !scene.cache.results.contains ticket.flight
  | .done _ => true
  | _ => false

def step [Disk sigma] (setup : CacheSetup sigma alpha) (now : UInt64) (call : Call alpha)
    (scene : Scene sigma alpha) : Call alpha × Scene sigma alpha :=
  match call.phase with
  | .opening => call.openCall setup now scene
  | .loading => call.load setup scene
  | .restoring loaded => call.restore setup now scene loaded
  | .scanning entry checked touched pending => call.scan scene entry checked touched pending
  | .hashing entry checked file current pending =>
      call.compare scene entry checked file current pending
  | .missed stale seen => call.enter now scene stale seen
  | .capturing ticket => call.capture scene ticket
  | .reading ticket fingerprint => call.read scene ticket fingerprint
  | .computing _ _ => (call, scene)
  | .saving ticket persisted => call.save setup scene ticket persisted
  | .saved ticket value outcome => call.supersede scene ticket value outcome
  | .removing ticket value previous => call.remove setup scene ticket value previous
  | .removed ticket value previous outcome =>
      call.reportSuperseded scene ticket value previous outcome
  | .waiting ticket => call.receive scene ticket
  | .done _ => (call, scene)

end Call
end LessonPress

import LessonPress.Proofs.Cache.Vouching

/-!
# Calls without a store

## A step on a store that gives nothing beside the step without a store

As long as no load gives an entry, both steps lead to the same phase and the same cache.
They differ in the outcomes of store operations that the calls have at hand, and in the
events that report their failures.
-/

namespace LessonPress

namespace CacheEvent

def isStoreFailure : CacheEvent -> Bool
  | loadFailed _ => true
  | persistFailed _ => true
  | _ => false

def withoutFailures (events : List (String × CacheEvent)) : List (String × CacheEvent) :=
  events.filter fun event => !event.2.isStoreFailure

end CacheEvent

namespace CacheSetup

variable {sigma alpha : Type}

def withoutStore (setup : CacheSetup sigma alpha) : CacheSetup sigma alpha :=
  { setup with store := none }

end CacheSetup

def Phase.storeless {alpha : Type} : Phase alpha -> Phase alpha
  | restoring _ => .restoring (.ok none)
  | saved ticket value _ => .saved ticket value (.ok ())
  | removed ticket value previous _ => .removed ticket value previous (.ok ())
  | phase => phase

namespace Call

variable {alpha : Type}

def storeless (call : Call alpha) : Call alpha :=
  call.goTo call.phase.storeless

@[simp] theorem keyText_storeless (call : Call alpha) :
    call.storeless.keyText = call.keyText := by
  rfl

@[simp] theorem options_storeless (call : Call alpha) :
    call.storeless.options = call.options := by
  rfl

def computing? (call : Call alpha) : Option (Option TrackedFile) :=
  match call.phase with
  | .computing _ primary => some primary
  | _ => none

theorem computing?_storeless (call : Call alpha) :
    call.storeless.computing? = call.computing? := by
  unfold computing? storeless goTo
  cases call.phase <;> rfl

theorem result?_storeless (call : Call alpha) : call.storeless.result? = call.result? := by
  unfold result? storeless goTo
  cases call.phase <;> rfl

def looksAt? (call : Call alpha) : Option FilePath :=
  match call.phase with
  | .scanning _ _ _ (file :: _) => some file.path
  | .hashing _ _ file _ _ => some file.path
  | .capturing _ => some call.key.path
  | .reading _ _ => some call.key.path
  | _ => none

end Call

/-!
# Two scenes
-/

section Echoes

variable {sigma alpha : Type}

structure Scene.Echoes (past : List (String × CacheEvent)) (scene bare : Scene sigma alpha) :
    Prop where
  cache : bare.cache = scene.cache
  events : exists events, scene.events = past ++ events ∧
    bare.events = past ++ CacheEvent.withoutFailures events

structure Call.Echoes (past : List (String × CacheEvent))
    (next bare : Call alpha × Scene sigma alpha) : Prop where
  call : bare.1 = next.1.storeless
  scene : next.2.Echoes past bare.2

namespace Scene.Echoes

variable {past : List (String × CacheEvent)} {scene bare : Scene sigma alpha}

theorem refl (scene : Scene sigma alpha) : scene.Echoes scene.events scene where
  cache := rfl
  events := ⟨[], (List.append_nil _).symm, (List.append_nil _).symm⟩

theorem append (h : scene.Echoes past bare) (more : List (String × CacheEvent)) :
    { scene with events := scene.events ++ more }.Echoes past
      { bare with events := bare.events ++ CacheEvent.withoutFailures more } where
  cache := h.cache
  events := by
    obtain ⟨events, hscene, hbare⟩ := h.events
    refine ⟨events ++ more, ?_, ?_⟩
    · rw [hscene, List.append_assoc]
    · unfold CacheEvent.withoutFailures at hbare ⊢
      rw [hbare, List.append_assoc, List.filter_append]

theorem emit (h : scene.Echoes past bare) (key : String) {event : CacheEvent}
    (hevent : event.isStoreFailure = false) :
    (scene.emit key event).Echoes past (bare.emit key event) := by
  have hkept : CacheEvent.withoutFailures [(key, event)] = [(key, event)] := by
    simp [CacheEvent.withoutFailures, hevent]
  have hmore := h.append [(key, event)]
  rw [hkept] at hmore
  exact hmore

theorem emit_failure (h : scene.Echoes past bare) (key : String) {event : CacheEvent}
    (hevent : event.isStoreFailure = true) : (scene.emit key event).Echoes past bare := by
  have hdropped : CacheEvent.withoutFailures [(key, event)] = [] := by
    simp [CacheEvent.withoutFailures, hevent]
  have hmore := h.append [(key, event)]
  rw [hdropped, List.append_nil] at hmore
  exact hmore

theorem emitFailure (h : scene.Echoes past bare) (key : String) (outcome : Except Error Unit) :
    (scene.emitFailure key outcome).Echoes past bare := by
  cases outcome with
  | ok _ => exact h
  | error cause => exact h.emit_failure key rfl

theorem change (h : scene.Echoes past bare) (cache : Cache alpha) (disk other : sigma) :
    (Scene.mk cache disk scene.events).Echoes past ⟨cache, other, bare.events⟩ :=
  ⟨rfl, h.events⟩

end Scene.Echoes

end Echoes

/-!
# Steps
-/

namespace Call

variable {sigma alpha : Type} {setup : CacheSetup sigma alpha} {now : UInt64}
  {call : Call alpha} {scene bare : Scene sigma alpha} {past : List (String × CacheEvent)}

theorem miss_echoes (h : scene.Echoes past bare) (reason : MissReason) (stale : Option alpha)
    (seen : Option UInt64) :
    Echoes past (call.miss scene reason stale seen) (call.storeless.miss bare reason stale seen) :=
  ⟨rfl, h.emit call.keyText rfl⟩

theorem land_echoes (h : scene.Echoes past bare) (ticket : Ticket alpha)
    (result : Except Error alpha) :
    Echoes past (call.land scene ticket result) (call.storeless.land bare ticket result) := by
  refine ⟨rfl, ?_⟩
  unfold land
  rw [h.cache]
  exact h.change _ _ _

theorem judge_echoes (h : scene.Echoes past bare) (entry : CacheEntry alpha) :
    Echoes past (call.judge setup now scene entry)
      (call.storeless.judge setup.withoutStore now bare entry) := by
  unfold judge
  rw [h.cache, keyText_storeless]
  change Echoes past (if setup.trust then _ else _) (if setup.trust then _ else _)
  split
  · exact ⟨rfl, h.emit call.keyText rfl⟩
  · split
    · exact miss_echoes h ..
    · cases scene.cache.records.find? call.keyText with
      | none => exact miss_echoes h ..
      | some files => exact ⟨rfl, h⟩

theorem openCall_echoes (h : scene.Echoes past bare) :
    Echoes past (call.openCall setup now scene)
      (call.storeless.openCall setup.withoutStore now bare) := by
  unfold openCall
  rw [h.cache, options_storeless, keyText_storeless]
  split
  · exact miss_echoes h ..
  · cases scene.cache.entries.find? call.keyText with
    | none => exact ⟨rfl, h⟩
    | some entry => exact judge_echoes h entry

theorem load_echoes (h : scene.Echoes past bare) :
    Echoes past (call.load setup scene) (call.storeless.load setup.withoutStore bare) := by
  unfold load
  cases setup.store with
  | none => exact ⟨rfl, h⟩
  | some store => exact ⟨rfl, h.cache, h.events⟩

theorem restore_echoes (h : scene.Echoes past bare)
    {loaded : Except Error (Option (PersistedEntry alpha))}
    (hnone : forall persisted, loaded ≠ .ok (some persisted)) :
    Echoes past (call.restore setup now scene loaded)
      (call.storeless.restore setup.withoutStore now bare (.ok none)) := by
  unfold restore
  cases loaded with
  | error cause => exact miss_echoes (h.emit_failure call.keyText rfl) ..
  | ok found =>
      cases found with
      | none => exact miss_echoes h ..
      | some persisted => exact absurd rfl (hnone persisted)

theorem enter_echoes (h : scene.Echoes past bare) (stale : Option alpha) (seen : Option UInt64) :
    Echoes past (call.enter now scene stale seen)
      (call.storeless.enter now bare stale seen) := by
  unfold enter
  rw [h.cache, keyText_storeless]
  cases scene.cache.flights.find? call.keyText with
  | some flight => exact ⟨rfl, h.emit call.keyText rfl⟩
  | none =>
      have hcache := h.change
        { scene.cache with
          flights := scene.cache.flights.insert call.keyText scene.cache.nextFlight
          nextFlight := scene.cache.nextFlight + 1 } scene.disk bare.disk
      have hnewer : newerEntry now call.storeless
          { bare with
            cache :=
              { scene.cache with
                flights := scene.cache.flights.insert call.keyText scene.cache.nextFlight
                nextFlight := scene.cache.nextFlight + 1 } } seen =
          call.newerEntry now scene seen := rfl
      have hnewer' : newerEntry now call
          { scene with
            cache :=
              { scene.cache with
                flights := scene.cache.flights.insert call.keyText scene.cache.nextFlight
                nextFlight := scene.cache.nextFlight + 1 } } seen =
          call.newerEntry now scene seen := rfl
      dsimp only
      rw [hnewer, hnewer']
      cases call.newerEntry now scene seen with
      | some entry => exact land_echoes (hcache.emit call.keyText rfl) ..
      | none => exact ⟨rfl, hcache⟩

theorem supersede_echoes (h : scene.Echoes past bare) (ticket : Ticket alpha) (value : alpha)
    (outcome : Except Error Unit) :
    Echoes past (call.supersede scene ticket value outcome)
      (call.storeless.supersede bare ticket value (.ok ())) := by
  have hfailure := h.emitFailure call.keyText outcome
  have hbare : bare.emitFailure call.storeless.keyText (.ok ()) = bare := rfl
  have hpath : call.storeless.key = call.key := rfl
  unfold supersede
  rw [hbare, hpath, keyText_storeless]
  dsimp only
  rw [hfailure.cache]
  cases (scene.emitFailure call.keyText outcome).cache.currentKeys.find?
      call.key.path.components with
  | none => exact land_echoes (hfailure.change _ _ _) ..
  | some previous =>
      dsimp only
      split
      · exact land_echoes (hfailure.change _ _ _) ..
      · exact ⟨rfl, hfailure.change _ _ _⟩

theorem remove_echoes (h : scene.Echoes past bare) (ticket : Ticket alpha) (value : alpha)
    (previous : String) :
    Echoes past (call.remove setup scene ticket value previous)
      (call.storeless.remove setup.withoutStore bare ticket value previous) := by
  unfold remove Scene.removeStored
  cases setup.store with
  | none => exact ⟨rfl, h⟩
  | some store => exact ⟨rfl, h.cache, h.events⟩

theorem receive_echoes (h : scene.Echoes past bare) {ticket : Ticket alpha}
    (hphase : call.phase = .waiting ticket) :
    Echoes past (call.receive scene ticket) (call.storeless.receive bare ticket) := by
  have hstoreless : call.storeless = call := by
    unfold storeless
    rw [hphase]
    exact congrArg call.goTo hphase.symm
  unfold receive
  rw [h.cache, hstoreless]
  cases scene.cache.results.find? ticket.flight with
  | none => exact ⟨hstoreless.symm, h⟩
  | some result =>
      have hreleased := h.change (release scene.cache call.keyText ticket.flight) scene.disk
        bare.disk
      cases result with
      | ok value => exact ⟨rfl, hreleased⟩
      | error cause =>
          cases ticket.stale with
          | none => exact ⟨rfl, hreleased⟩
          | some value => exact ⟨rfl, hreleased.emit call.keyText rfl⟩

/-!
Four steps look at a file, and the same is seen there.
-/

section Looks

variable [Disk sigma]

def SameView (scene bare : Scene sigma alpha) (path : FilePath) : Prop :=
  (Disk.files bare.disk).view path = (Disk.files scene.disk).view path

theorem SameView.fingerprint {path : FilePath} (h : SameView scene bare path) :
    Fingerprint.read (Disk.files bare.disk) path = Fingerprint.read (Disk.files scene.disk) path :=
  Fingerprint.read_eq_of_view h

theorem SameView.read {path : FilePath} (h : SameView scene bare path) :
    (Disk.files bare.disk).read path = (Disk.files scene.disk).read path :=
  congrArg Prod.snd h

theorem scan_echoes (h : scene.Echoes past bare) (entry : CacheEntry alpha)
    (checked : List TrackedFile) (touched : Bool) {pending : List TrackedFile}
    (hview : forall file, file ∈ pending.head? -> SameView scene bare file.path) :
    Echoes past (call.scan scene entry checked touched pending)
      (call.storeless.scan bare entry checked touched pending) := by
  unfold scan
  cases pending with
  | nil =>
      rw [h.cache]
      exact ⟨rfl, (h.change _ _ _).emit call.keyText rfl⟩
  | cons file pending =>
      dsimp only
      rw [(hview file rfl).fingerprint]
      cases file.glance (Fingerprint.read (Disk.files scene.disk) file.path) with
      | same => exact ⟨rfl, h⟩
      | moved current => exact ⟨rfl, h⟩
      | changed => exact miss_echoes h ..

theorem compare_echoes (h : scene.Echoes past bare) (entry : CacheEntry alpha)
    (checked : List TrackedFile) {file : TrackedFile} (current : Fingerprint)
    (pending : List TrackedFile) (hview : SameView scene bare file.path) :
    Echoes past (call.compare scene entry checked file current pending)
      (call.storeless.compare bare entry checked file current pending) := by
  unfold compare
  rw [hview.read]
  cases file.refresh current ((Disk.files scene.disk).read file.path) with
  | some updated => exact ⟨rfl, h⟩
  | none => exact miss_echoes h ..

theorem capture_echoes (h : scene.Echoes past bare) (ticket : Ticket alpha)
    (hview : SameView scene bare call.key.path) :
    Echoes past (call.capture scene ticket) (call.storeless.capture bare ticket) := by
  have hpath : call.storeless.key = call.key := rfl
  unfold capture
  rw [hpath, hview.fingerprint]
  cases Fingerprint.read (Disk.files scene.disk) call.key.path with
  | ok fingerprint => exact ⟨rfl, h⟩
  | error cause => exact ⟨rfl, h⟩

theorem read_echoes (h : scene.Echoes past bare) (ticket : Ticket alpha)
    (fingerprint : Fingerprint) (hview : SameView scene bare call.key.path) :
    Echoes past (call.read scene ticket fingerprint)
      (call.storeless.read bare ticket fingerprint) := by
  have hpath : call.storeless.key = call.key := rfl
  unfold read
  rw [hpath, hview.read]
  cases (Disk.files scene.disk).read call.key.path with
  | ok bytes => exact ⟨rfl, h⟩
  | error cause => exact ⟨rfl, h⟩

theorem step_echoes (setup : CacheSetup sigma alpha) (now : UInt64) (h : scene.Echoes past bare)
    (hnone : forall persisted, call.phase ≠ .restoring (.ok (some persisted)))
    (hview : forall path, call.looksAt? = some path -> SameView scene bare path) :
    Echoes past (call.step setup now scene)
      (call.storeless.step setup.withoutStore now bare) := by
  unfold looksAt? at hview
  unfold step
  have hphase : call.storeless.phase = call.phase.storeless := rfl
  rw [hphase]
  cases hcall : call.phase with
  | opening => exact openCall_echoes h
  | loading => exact load_echoes h
  | restoring loaded =>
      refine restore_echoes h ?_
      intro persisted hloaded
      rw [hloaded] at hcall
      exact hnone persisted hcall
  | scanning entry checked touched pending =>
      rw [hcall] at hview
      refine scan_echoes h entry checked touched ?_
      intro file hfile
      cases pending with
      | nil => cases hfile
      | cons first rest =>
          cases hfile
          exact hview _ rfl
  | hashing entry checked file current pending =>
      rw [hcall] at hview
      exact compare_echoes h entry checked current pending (hview _ rfl)
  | missed stale seen => exact enter_echoes h stale seen
  | capturing ticket =>
      rw [hcall] at hview
      exact capture_echoes h ticket (hview _ rfl)
  | reading ticket fingerprint =>
      rw [hcall] at hview
      exact read_echoes h ticket fingerprint (hview _ rfl)
  | computing ticket primary => exact ⟨rfl, h⟩
  | saving ticket persisted =>
      dsimp only [save, Phase.storeless, CacheSetup.withoutStore]
      cases setup.store with
      | none => exact ⟨rfl, h⟩
      | some store => exact ⟨rfl, h.cache, h.events⟩
  | saved ticket value outcome => exact supersede_echoes h ticket value outcome
  | removing ticket value previous => exact remove_echoes h ticket value previous
  | removed ticket value previous outcome =>
      exact land_echoes ((h.emitFailure previous outcome).emit previous rfl) ..
  | waiting ticket => exact receive_echoes h hcall
  | done result => exact ⟨rfl, h⟩

end Looks

theorem complete_echoes (h : scene.Echoes past bare) (outcome : Except Error (Computed alpha)) :
    Echoes past (call.complete now scene outcome) (call.storeless.complete now bare outcome) := by
  unfold complete
  have hphase : call.storeless.phase = call.phase.storeless := rfl
  rw [hphase]
  cases call.phase with
  | computing ticket primary =>
      cases outcome with
      | error cause => exact land_echoes (h.emit call.keyText rfl) ..
      | ok computed =>
          have hcomputed : (scene.emit call.keyText .computed).Echoes past
              (bare.emit call.keyText .computed) := h.emit call.keyText rfl
          have hkeep : call.storeless.keep now (bare.emit call.keyText .computed).cache primary
              computed = call.keep now (scene.emit call.keyText .computed).cache primary computed :=
            congrArg (fun cache => call.keep now cache primary computed) hcomputed.cache
          dsimp only [Phase.storeless]
          rw [keyText_storeless, hkeep]
          exact ⟨rfl, (hcomputed.change _ _ _).emit call.keyText rfl⟩
  | _ => exact ⟨rfl, h⟩

theorem invalidate_echoes (setup : CacheSetup sigma alpha) (h : scene.Echoes past bare)
    (key : CacheKey) :
    (scene.invalidate setup key).Echoes past (bare.invalidate setup.withoutStore key) := by
  have hdropped := h.change ((scene.cache.retire key).forget key.text) scene.disk bare.disk
  unfold Scene.invalidate Scene.removeStored
  rw [h.cache]
  cases setup.store with
  | none => exact hdropped
  | some store =>
      refine Scene.Echoes.emitFailure ?_ key.text _
      exact ⟨hdropped.cache, hdropped.events⟩

end Call

end LessonPress

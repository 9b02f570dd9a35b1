import LessonPress.Cache.Run

/-!
# Decisions

## What a lookup comes to when nothing else goes on

A lookup without force ends with an answer or with a miss.  Which of them it is depends
on the entry, the clock and the tracked files as they are now, and on the store only if
there is no entry in memory.
-/

namespace LessonPress

namespace TrackedFile

def stands (fs : FileSystem) (file : TrackedFile) : Bool :=
  match file.probe fs with
  | .changed => false
  | _ => true

theorem stands_eq (fs : FileSystem) (file : TrackedFile) :
    file.stands fs =
      match file.glance (Fingerprint.read fs file.path) with
      | .same => true
      | .changed => false
      | .moved current => (file.refresh current (fs.read file.path)).isSome := by
  unfold stands probe
  cases file.glance (Fingerprint.read fs file.path) with
  | same => rfl
  | changed => rfl
  | moved current =>
      dsimp only
      cases file.refresh current (fs.read file.path) <;> rfl

end TrackedFile

theorem FileRecords.isOk_checkList (fs : FileSystem) (files : List TrackedFile) :
    (checkList fs files).isOk = files.all (TrackedFile.stands fs) := by
  induction files with
  | nil => rfl
  | cons file rest ih =>
      unfold checkList
      rw [List.all_cons, ← ih]
      unfold TrackedFile.stands
      cases file.probe fs with
      | changed => rfl
      | same => cases checkList fs rest <;> rfl
      | touched updated => cases checkList fs rest <;> rfl

namespace CacheEntry

variable {alpha : Type}

def verdict (entry : CacheEntry alpha) (passed : Bool) : Phase alpha :=
  if passed then .done (.ok entry.value) else .missed none (some entry.created)

def decision (entry : CacheEntry alpha) (now : UInt64) (fs : FileSystem)
    (records : Option (List TrackedFile)) : Phase alpha :=
  if entry.isFreshAt now then
    match records with
    | none => .missed none (some entry.created)
    | some files => entry.verdict (FileRecords.checkList fs files).isOk
  else
    .missed (if entry.isServableStaleAt now then some entry.value else none) (some entry.created)

theorem verdict_inj (entry : CacheEntry alpha) {passed other : Bool} :
    entry.verdict passed = entry.verdict other <-> passed = other := by
  constructor
  · intro h
    cases passed <;> cases other <;> first | rfl | cases h
  · intro h
    rw [h]

end CacheEntry

def Scene.pass {sigma alpha : Type} (scene : Scene sigma alpha) (key : String)
    (checked : List TrackedFile) (touched : Bool) : Scene sigma alpha :=
  let records := scene.cache.records
  let cache :=
    { scene.cache with records := if touched then records.insert key checked else records }
  Scene.emit { scene with cache := cache } key .hit

def Scene.restored {sigma alpha : Type} (scene : Scene sigma alpha) (key : String)
    (persisted : PersistedEntry alpha) : Scene sigma alpha :=
  let cache :=
    { scene.cache with
      entries := scene.cache.entries.insert key persisted.entry
      records := scene.cache.records.insert key persisted.tracked }
  Scene.emit { scene with cache := cache } key .restored

/-- A loaded entry is judged as one that was in memory. -/
theorem Call.restore_of_none {sigma alpha : Type} {setup : CacheSetup sigma alpha} {now : UInt64}
    {call : Call alpha} {scene : Scene sigma alpha}
    (hentry : scene.cache.entries.find? call.keyText = none) (persisted : PersistedEntry alpha) :
    call.restore setup now scene (.ok (some persisted)) =
      call.judge setup now (scene.restored call.keyText persisted) persisted.entry := by
  unfold restore
  dsimp only
  rw [hentry]
  rfl

namespace Call

variable {sigma alpha : Type} [Disk sigma] {setup : CacheSetup sigma alpha} {now : UInt64}
  {call : Call alpha} {scene : Scene sigma alpha}

theorem run_of_paused (h : call.isPaused scene = true) :
    call.run setup now scene = (call, scene) := by
  rw [run, if_pos h]

theorem run_of_step (h : call.isPaused scene = false) :
    call.run setup now scene =
      run setup now (call.step setup now scene).1 (call.step setup now scene).2 := by
  rw [run, if_neg (by simp [h])]

theorem run_done {result : Except Error alpha} (h : call.phase = .done result) :
    call.run setup now scene = (call, scene) := by
  apply run_of_paused
  unfold isPaused isBlocked
  rw [h]

theorem run_missed {stale : Option alpha} {seen : Option UInt64}
    (h : call.phase = .missed stale seen) : call.run setup now scene = (call, scene) := by
  apply run_of_paused
  unfold isPaused
  rw [h]

theorem run_scanning_eq {entry : CacheEntry alpha} {pending : List TrackedFile} :
    forall {call : Call alpha} {checked : List TrackedFile} {touched : Bool},
      call.phase = .scanning entry checked touched pending ->
      call.run setup now scene =
        match FileRecords.checkList (Disk.files scene.disk) pending with
        | .error path => call.miss scene (.changed path) none (some entry.created)
        | .ok (renewed, moved) =>
            (call.goTo (.done (.ok entry.value)),
              scene.pass call.keyText (checked ++ renewed) (touched || moved)) := by
  induction pending with
  | nil =>
      intro call checked touched hphase
      have hpaused : call.isPaused scene = false := by
        unfold isPaused isBlocked
        rw [hphase]
      have hnext : call.step setup now scene =
          (call.goTo (.done (.ok entry.value)), scene.pass call.keyText checked touched) := by
        unfold step
        rw [hphase]
        rfl
      rw [run_of_step hpaused, hnext, run_done rfl]
      simp [FileRecords.checkList]
  | cons file pending ih =>
      intro call checked touched hphase
      have hpaused : call.isPaused scene = false := by
        unfold isPaused isBlocked
        rw [hphase]
      rw [run_of_step hpaused]
      unfold step FileRecords.checkList TrackedFile.probe
      rw [hphase]
      dsimp only [scan]
      cases file.glance (Fingerprint.read (Disk.files scene.disk) file.path) with
      | same =>
          dsimp only
          rw [ih rfl]
          cases FileRecords.checkList (Disk.files scene.disk) pending with
          | error path => rfl
          | ok found =>
              dsimp only
              rw [List.append_assoc]
              rfl
      | changed =>
          dsimp only
          rw [run_missed rfl]
          rfl
      | moved current =>
          -- the second look takes a step of its own
          dsimp only
          rw [run_of_step rfl]
          dsimp only [step, compare, goTo]
          cases file.refresh current ((Disk.files scene.disk).read file.path) with
          | none =>
              dsimp only
              rw [run_missed rfl]
              rfl
          | some updated =>
              dsimp only
              rw [ih rfl]
              cases FileRecords.checkList (Disk.files scene.disk) pending with
              | error path => rfl
              | ok found =>
                  dsimp only
                  rw [List.append_assoc, Bool.or_true]
                  rfl

theorem run_scanning {entry : CacheEntry alpha} {checked pending : List TrackedFile}
    {touched : Bool} (hphase : call.phase = .scanning entry checked touched pending) :
    (call.run setup now scene).1.phase =
      entry.verdict (FileRecords.checkList (Disk.files scene.disk) pending).isOk := by
  rw [run_scanning_eq hphase]
  cases FileRecords.checkList (Disk.files scene.disk) pending <;> rfl

theorem run_judge (htrust : setup.trust = false) (entry : CacheEntry alpha) :
    (run setup now (call.judge setup now scene entry).1
        (call.judge setup now scene entry).2).1.phase =
      entry.decision now (Disk.files scene.disk) (scene.cache.records.find? call.keyText) := by
  unfold judge CacheEntry.decision
  rw [htrust]
  cases hfresh : entry.isFreshAt now with
  | false =>
      rw [run_missed rfl]
      rfl
  | true =>
      cases hrecords : scene.cache.records.find? call.keyText with
      | none =>
          rw [run_missed rfl]
          rfl
      | some files =>
          rw [run_scanning rfl]
          rfl

end Call

theorem Call.openCall_new {sigma alpha : Type} {setup : CacheSetup sigma alpha} {now : UInt64}
    {key : CacheKey} {options : CallOptions} {scene : Scene sigma alpha}
    (hforce : options.forceFresh = false) :
    (Call.new key options).openCall setup now scene =
      match scene.cache.entries.find? key.text with
      | some entry => (Call.new key options).judge setup now scene entry
      | none => ((Call.new key options).goTo .loading, scene) := by
  have hfree : ¬ (Call.new key options : Call alpha).options.forceFresh = true := by
    simp [Call.new, hforce]
  unfold openCall
  rw [if_neg hfree]
  rfl

namespace Scene

variable {sigma alpha : Type} [Disk sigma] {setup : CacheSetup sigma alpha} {now : UInt64}
  {key : CacheKey} {options : CallOptions} {scene : Scene sigma alpha}

def decision (setup : CacheSetup sigma alpha) (now : UInt64) (key : CacheKey)
    (options : CallOptions) (scene : Scene sigma alpha) : Phase alpha :=
  ((Call.new key options).run setup now scene).1.phase

theorem decision_eq (setup : CacheSetup sigma alpha) (now : UInt64) (key : CacheKey)
    (options : CallOptions) (scene : Scene sigma alpha) :
    scene.decision setup now key options =
      (Call.run setup now ((Call.new key options).openCall setup now scene).1
        ((Call.new key options).openCall setup now scene).2).1.phase := by
  unfold decision
  rw [Call.run_of_step rfl]
  rfl

theorem decision_of_entry (htrust : setup.trust = false) (hforce : options.forceFresh = false)
    {entry : CacheEntry alpha} (hentry : scene.cache.entries.find? key.text = some entry) :
    scene.decision setup now key options =
      entry.decision now (Disk.files scene.disk) (scene.cache.records.find? key.text) := by
  rw [decision_eq, Call.openCall_new hforce, hentry]
  exact Call.run_judge htrust entry

theorem decision_of_none (htrust : setup.trust = false) (hforce : options.forceFresh = false)
    {store : Store sigma alpha} (hstore : setup.store = some store)
    (hentry : scene.cache.entries.find? key.text = none) :
    scene.decision setup now key options =
      match store.load key.text scene.disk with
      | (.ok (some persisted), disk) =>
          persisted.entry.decision now (Disk.files disk) (some persisted.tracked)
      | _ => .missed none none := by
  let call : Call alpha := .new key options
  have hload : (call.goTo .loading).load setup scene =
      (call.goTo (.restoring (store.load key.text scene.disk).1),
        { scene with disk := (store.load key.text scene.disk).2 }) := by
    unfold Call.load
    rw [hstore]
    rfl
  rw [decision_eq, Call.openCall_new hforce, hentry]
  change (Call.run setup now (call.goTo .loading) scene).1.phase = _
  rw [Call.run_of_step rfl]
  change (Call.run setup now ((call.goTo .loading).load setup scene).1
    ((call.goTo .loading).load setup scene).2).1.phase = _
  rw [hload, Call.run_of_step rfl]
  rcases hfound : store.load key.text scene.disk with ⟨loaded, disk⟩
  change (Call.run setup now
    ((call.goTo (.restoring loaded)).restore setup now { scene with disk := disk } loaded).1
    ((call.goTo (.restoring loaded)).restore setup now { scene with disk := disk } loaded).2
    ).1.phase = _
  cases loaded with
  | error cause =>
      show (Call.run setup now (Call.miss _ _ _ _ _).1 _).1.phase = _
      rw [Call.run_missed rfl]
      rfl
  | ok found =>
      cases found with
      | none =>
          show (Call.run setup now (Call.miss _ _ _ _ _).1 _).1.phase = _
          rw [Call.run_missed rfl]
          rfl
      | some persisted =>
          rw [Call.restore_of_none hentry, Call.run_judge htrust]
          congr 1
          exact Table.find?_insert_self ..

end Scene
end LessonPress

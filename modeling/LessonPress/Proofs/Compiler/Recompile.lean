import LessonPress.Compiler.Basic
import LessonPress.Proofs.Cache.WholeCalls
import LessonPress.Proofs.Embed.Tracking

/-!
# Compiling again

## When a result is served a second time

A compiler that looks at the files every time serves its last result of a document again
while the files stay as they are.  Its check takes a directory for a file that has
appeared, so a document that asks for one is compiled every time.
-/

namespace LessonPress
namespace Compile

def requested (fs : FileSystem) (path : FilePath) : List FilePath :=
  match readDocument fs path with
  | .ok (_, document) => Directive.requestedPaths document (directoryOf path)
  | .error _ => []

variable {fs : FileSystem} {ledger : DriftLedger} {path : FilePath}
  {computed : Computed CompiledDocument}

theorem compileDocument_ok (h : (compileDocument fs ledger path).1 = .ok computed) :
    (exists bytes, fs.read path = .ok bytes) ∧
      computed.dependencies = (Sources.preload fs (requested fs path)).tracked := by
  unfold compileDocument at h
  unfold requested
  cases hdocument : readDocument fs path with
  | error cause =>
      rw [hdocument] at h
      cases h
  | ok found =>
      rcases found with ⟨source, document⟩
      rw [hdocument] at h
      refine ⟨?_, (congrArg Computed.dependencies (Except.ok.inj h)).symm⟩
      unfold readDocument at hdocument
      cases hread : fs.read path with
      | error cause =>
          rw [hread] at hdocument
          cases hdocument
      | ok bytes => exact ⟨bytes, rfl⟩

theorem isOk_compileDocument (fs : FileSystem) (ledger : DriftLedger) (path : FilePath) :
    (compileDocument fs ledger path).1.isOk = (readDocument fs path).isOk := by
  unfold compileDocument
  cases readDocument fs path <;> rfl

theorem readDocument_congr {other : FileSystem} (h : fs.read path = other.read path) :
    readDocument fs path = readDocument other path := by
  unfold readDocument
  rw [h]

theorem distinct_requested (fs : FileSystem) (path : FilePath) : Distinct (requested fs path) := by
  unfold requested
  cases readDocument fs path with
  | error cause => exact .nil
  | ok found => exact Directive.distinct_requestedPaths _ _

end Compile

namespace DocumentCompiler

variable {config : CompilerConfig}

theorem readsOnly_setup (config : CompilerConfig) : (setup config).ReadsOnly := by
  intro store key disk hstore
  obtain ⟨directory, _, rfl⟩ := Option.map_eq_some_iff.mp hstore
  rfl

/-!
# Compilers at work
-/

/-- No result in the cache directory has a lifetime. -/
def Lasting (config : CompilerConfig) (workspace : Workspace) : Prop :=
  forall store key persisted, (setup config).store = some store ->
    (store.load key workspace).1 = .ok (some persisted) -> persisted.entry.ttl = none

theorem lasting_of_none (h : config.cacheDirectory = none) (workspace : Workspace) :
    Lasting config workspace := by
  intro store key persisted hstore
  unfold setup at hstore
  rw [h] at hstore
  cases hstore

theorem Lasting.loaded {workspace : Workspace} (h : Lasting config workspace)
    {call : Call CompiledDocument} {persisted : PersistedEntry CompiledDocument}
    (hloaded : call.loaded (setup config) workspace = .ok (some persisted)) :
    persisted.entry.ttl = none := by
  unfold Call.loaded at hloaded
  cases hstore : (setup config).store with
  | none =>
      rw [hstore] at hloaded
      cases hloaded
  | some store =>
      rw [hstore] at hloaded
      exact h store _ persisted hstore hloaded

/-- What a compiler can come to: it compiles documents, one after the other, is cleared,
drops keys, and finds the disk changed. -/
inductive Reached (config : CompilerConfig) : Scene Workspace CompiledDocument -> Prop where
  | start (workspace : Workspace) : Reached config ⟨.empty, workspace, []⟩
  | compile {scene : Scene Workspace CompiledDocument} (now : UInt64) (path : FilePath)
      (forceFresh : Bool) : Reached config scene -> Lasting config scene.disk ->
      Reached config (compile config now path forceFresh scene).2
  | change {scene : Scene Workspace CompiledDocument} (workspace : Workspace) :
      Reached config scene -> Reached config { scene with disk := workspace }
  | clear {scene : Scene Workspace CompiledDocument} : Reached config scene ->
      Reached config { scene with cache := scene.cache.clear }
  | invalidate {scene : Scene Workspace CompiledDocument} (key : CacheKey) :
      Reached config scene -> Reached config (scene.invalidate (setup config) key)

theorem Reached.settled (htrust : config.trust = false) (httl : config.ttl = none)
    {scene : Scene Workspace CompiledDocument} (h : Reached config scene) :
    Scene.Settled scene.cache := by
  induction h with
  | start workspace => exact Scene.settled_empty
  | @compile scene now path forceFresh _ hlasting ih =>
      unfold DocumentCompiler.compile
      cases keyOf config scene.disk.files path with
      | error cause => exact ih
      | ok key =>
          exact ih.getOrCompute htrust (readsOnly_setup config) httl
            (fun _ hloaded => hlasting.loaded hloaded) _
  | change workspace _ ih => exact ih
  | clear _ ih => exact ⟨ih.free, nofun⟩
  | @invalidate scene key _ ih =>
      constructor
      case free =>
        rw [(Crowd.sameFlights_invalidate _ _ _).flights]
        exact ih.free
      case lasting =>
        intro other entry hentry
        rw [(Call.invalidate_contents _ _ _).left] at hentry
        exact ih.lasting other entry (Table.find?_of_erase hentry)

/-!
# Hits
-/

/-- A compile is answered by a hit, after other events: it gives the value and leaves the
disk alone, whatever the computation would do. -/
def Serves (config : CompilerConfig) (now : UInt64) (path : FilePath) (forceFresh : Bool)
    (scene : Scene Workspace CompiledDocument) (value : CompiledDocument)
    (earlier : List (String × CacheEvent)) : Prop :=
  exists key cache, keyOf config scene.disk.files path = .ok key ∧
    compile config now path forceFresh scene =
      (.ok value, ⟨cache, scene.disk, scene.events ++ earlier ++ [(key.text, .hit)]⟩) ∧
    forall compute, scene.getOrCompute (setup config) now key (callOptions config forceFresh)
      compute = compile config now path forceFresh scene

variable {scene again : Scene Workspace CompiledDocument} {now later : UInt64}
  {path : FilePath} {forceFresh : Bool} {key : CacheKey} {value : CompiledDocument}
  {earlier : List (String × CacheEvent)}

theorem compile_eq (hkey : keyOf config scene.disk.files path = .ok key) :
    compile config now path forceFresh scene =
      scene.getOrCompute (setup config) now key (callOptions config forceFresh)
        (computeKey key) := by
  unfold compile
  rw [hkey]

theorem serves_of_hit (hkey : keyOf config scene.disk.files path = .ok key)
    {found : Scene Workspace CompiledDocument} (hdisk : found.disk = scene.disk)
    (hevents : found.events = scene.events ++ earlier) {checked : List TrackedFile}
    {touched : Bool}
    (hget : forall compute, scene.getOrCompute (setup config) now key
      (callOptions config forceFresh) compute =
        (.ok value, found.pass key.text checked touched)) :
    Serves config now path forceFresh scene value earlier := by
  refine ⟨key, (found.pass key.text checked touched).cache, hkey, ?_, fun compute => ?_⟩
  · rw [compile_eq hkey, hget, ← hdisk, ← hevents]
    rfl
  · rw [compile_eq hkey, hget, hget]

theorem not_serves_of_departs (hkey : keyOf config scene.disk.files path = .ok key)
    {found : Scene Workspace CompiledDocument}
    (hdeparts : Scene.Departs (setup config) now key (callOptions config forceFresh) scene found
      none) : ¬ Serves config now path forceFresh scene value earlier := by
  rintro ⟨other, cache, hother, hcompile, hcompute⟩
  rw [hkey] at hother
  cases hother
  -- the result of a computation that fails is its error
  let failing : Workspace -> Except Error (Computed CompiledDocument) × Workspace :=
    fun workspace => (.error Scene.abandoned, workspace)
  have hfailed : (failing found.disk).1 = .error Scene.abandoned := rfl
  obtain ⟨next, hget, _⟩ := hdeparts.failed hfailed
  have hresult := hcompute failing
  rw [hget, hcompile] at hresult
  cases hresult

section Listed

variable {entry : CacheEntry CompiledDocument} {files : List TrackedFile}
  (htrust : config.trust = false) (hkey : keyOf config again.disk.files path = .ok key)
  (hsettled : Scene.Settled again.cache)
  (hentry : again.cache.entries.find? key.text = some entry)
  (hlisted : again.cache.records.find? key.text = some files)
include htrust hsettled hentry hlisted

theorem departs_of_changed (later : UInt64) {changed : FilePath}
    (hfound : FileRecords.checkList (Disk.files again.disk) files = .error changed) :
    Scene.Departs (setup config) later key (callOptions config false) again again none := by
  have hrun : (Call.new key (callOptions config false)).run (setup config) later again = _ :=
    Call.run_new_of_listed htrust rfl hentry (hsettled.isFreshAt hentry later) hlisted
  rw [hfound] at hrun
  exact ⟨⟨_, _, hrun, Call.newerEntry_of_seen hentry⟩, hsettled.free⟩

theorem getOrCompute_of_checked (later : UInt64) {checked : List TrackedFile} {touched : Bool}
    (hfound : FileRecords.checkList (Disk.files again.disk) files = .ok (checked, touched))
    (compute : Workspace -> Except Error (Computed CompiledDocument) × Workspace) :
    again.getOrCompute (setup config) later key (callOptions config false) compute =
      (.ok entry.value, again.pass key.text checked touched) := by
  have hrun : (Call.new key (callOptions config false)).run (setup config) later again = _ :=
    Call.run_new_of_listed htrust rfl hentry (hsettled.isFreshAt hentry later) hlisted
  rw [hfound] at hrun
  exact Scene.getOrCompute_of_done hrun rfl compute

include hkey

/-- With its result and the files behind it in memory, a compile is answered by a hit
exactly if the files pass the check. -/
theorem serves_of_listed (later : UInt64) :
    (forall value earlier, Serves config later path false again value earlier ->
      value = entry.value ∧ earlier = []) ∧
      (Serves config later path false again entry.value [] <->
        files.all (TrackedFile.stands again.disk.files) = true) := by
  have hcheck : (FileRecords.checkList (Disk.files again.disk) files).isOk =
      files.all (TrackedFile.stands again.disk.files) := FileRecords.isOk_checkList _ _
  rw [← hcheck]
  cases hfound : FileRecords.checkList (Disk.files again.disk) files with
  | error changed =>
      have hdeparts : Scene.Departs (setup config) later key _ again again none :=
        departs_of_changed htrust hsettled hentry hlisted later hfound
      constructor
      · intro value earlier hserves
        exact absurd hserves (not_serves_of_departs hkey hdeparts)
      · constructor
        · intro hserves
          exact absurd hserves (not_serves_of_departs hkey hdeparts)
        · intro hok
          cases hok
  | ok checked =>
      have hget := getOrCompute_of_checked htrust hsettled hentry hlisted later hfound
      constructor
      · rintro value earlier ⟨other, cache, hother, hcompile, hcompute⟩
        rw [hkey] at hother
        cases hother
        rw [compile_eq hkey, hget] at hcompile
        have hevents : again.events ++ [(key.text, .hit)] =
            again.events ++ earlier ++ [(key.text, .hit)] :=
          congrArg (fun ended => ended.2.events) hcompile
        constructor
        · exact (Except.ok.inj (congrArg Prod.fst hcompile)).symm
        · simpa using hevents
      · constructor
        · intro _
          rfl
        · intro _
          exact serves_of_hit hkey rfl (List.append_nil _).symm hget

theorem computes_of_changed (later : UInt64)
    (hchanged : files.all (TrackedFile.stands again.disk.files) = false)
    (hreadable : (Compile.readDocument again.disk.files key.path).isOk = true) :
    exists reason, again.events ++ [(key.text, .miss reason), (key.text, .computed)] <+:
      (compile config later path false again).2.events := by
  have hcheck : (FileRecords.checkList (Disk.files again.disk) files).isOk = false :=
    (FileRecords.isOk_checkList _ _).trans hchanged
  cases hfound : FileRecords.checkList (Disk.files again.disk) files with
  | ok checked =>
      rw [hfound] at hcheck
      cases hcheck
  | error changed =>
      have hdeparts : Scene.Departs (setup config) later key _ again again none :=
        departs_of_changed htrust hsettled hentry hlisted later hfound
      cases houtcome : (computeKey key again.disk).1 with
      | error cause =>
          rw [← Compile.isOk_compileDocument _ again.disk.ledger] at hreadable
          change (computeKey key again.disk).1.isOk = true at hreadable
          rw [houtcome] at hreadable
          cases hreadable
      | ok computed =>
          obtain ⟨next, created, hget, hstores⟩ := hdeparts.computed houtcome
          rw [compile_eq hkey, hget]
          exact hstores.events

end Listed

/-!
# Compiling a document again
-/

/-- A compile of the path finds the same key, and of every file that is tracked for it as
much as before. -/
def Unchanged (config : CompilerConfig) (path : FilePath) (fs other : FileSystem)
    (cache : Cache CompiledDocument) : Prop :=
  keyOf config other path = keyOf config fs path ∧
    forall key files, keyOf config fs path = .ok key ->
      cache.records.find? key.text = some files ->
      forall file, file ∈ files -> other.view file.path = fs.view file.path

theorem Unchanged.all_stands {fs other : FileSystem} {cache : Cache CompiledDocument}
    (h : Unchanged config path fs other cache) (hkey : keyOf config fs path = .ok key)
    {files : List TrackedFile} (hlisted : cache.records.find? key.text = some files) :
    files.all (TrackedFile.stands other) = files.all (TrackedFile.stands fs) := by
  rw [Bool.eq_iff_iff, List.all_eq_true, List.all_eq_true]
  refine forall₂_congr fun file hfile => ?_
  rw [TrackedFile.stands_of_view (h.right key files hkey hlisted file hfile)]

/-- The document asks for a directory under a path that is not its own. -/
def AsksForDirectory (fs : FileSystem) (document : FilePath) : Prop :=
  exists path, path ∈ Compile.requested fs document ∧ document.same path = false ∧
    fs.isDirectory path = true

/-- What a compile that has computed leaves in memory: its value, and the files behind it.
They stand unless the document asks for a directory. -/
structure Leaves (fs : FileSystem) (key : CacheKey) (value : CompiledDocument)
    (cache : Cache CompiledDocument) (entry : CacheEntry CompiledDocument)
    (files : List TrackedFile) : Prop where
  stored : cache.entries.find? key.text = some entry
  value : entry.value = value
  listed : cache.records.find? key.text = some files
  readable : (Compile.readDocument fs key.path).isOk = true
  own : exists own, own ∈ files ∧ own.path = key.path
  stands : files.all (TrackedFile.stands fs) = true <-> ¬ AsksForDirectory fs key.path

theorem leaves_of_departs (hkey : keyOf config scene.disk.files path = .ok key)
    {found next : Scene Workspace CompiledDocument} (hdisk : found.disk = scene.disk)
    (hdeparts : Scene.Departs (setup config) now key (callOptions config forceFresh) scene found
      none)
    (hfirst : compile config now path forceFresh scene = (.ok value, next)) :
    exists entry files, Leaves scene.disk.files key value next.cache entry files := by
  rw [compile_eq hkey] at hfirst
  cases houtcome : (computeKey key found.disk).1 with
  | error cause =>
      obtain ⟨failed, hget, _⟩ := hdeparts.failed houtcome
      rw [hget] at hfirst
      cases hfirst
  | ok computed =>
      obtain ⟨stored, created, hget, hstores⟩ := hdeparts.computed houtcome
      rw [hget] at hfirst
      cases hfirst
      rw [hdisk] at houtcome hstores
      change (Compile.compileDocument _ _ _).1 = _ at houtcome
      obtain ⟨⟨bytes, hbytes⟩, hdependencies⟩ := Compile.compileDocument_ok houtcome
      obtain ⟨own, hown, hpath, hcurrent⟩ := Call.own?_of_read hbytes
      have hlisted : next.cache.records.find? key.text =
          some (Call.addFiles [own] computed.dependencies) := by
        refine hstores.listed.trans ?_
        change (Call.own? scene.disk.files key.path).map _ = _
        rw [hown]
        rfl
      refine ⟨_, _, hstores.stored, rfl, hlisted, ?readable, ⟨own, ?own, hpath⟩, ?stands⟩
      case readable =>
        rw [← Compile.isOk_compileDocument, houtcome]
        rfl
      case own =>
        obtain ⟨rest, hrest⟩ := addFiles_cons own [] computed.dependencies
        rw [hrest]
        exact List.mem_cons_self
      case stands =>
        rw [hdependencies, Call.stands_addFiles hcurrent.stands (Compile.distinct_requested _ _),
          hpath]
        unfold AsksForDirectory
        simp

theorem listed_of_pass {found : Scene Workspace CompiledDocument} {files renewed : List TrackedFile}
    {moved : Bool} {fs : FileSystem} (hlisted : found.cache.records.find? key.text = some files)
    (hcheck : FileRecords.checkList fs files = .ok (renewed, moved)) :
    (found.pass key.text renewed moved).cache.records.find? key.text = some renewed ∧
      renewed.all (TrackedFile.stands fs) = true := by
  have hpassed := FileRecords.checkList_passed hcheck
  constructor
  · cases moved with
    | true => exact Table.find?_insert_self ..
    | false =>
        rw [hpassed.right rfl]
        exact hlisted
  · exact List.all_eq_true.mpr hpassed.left

theorem again_of_leaves {fs : FileSystem} {cache : Cache CompiledDocument}
    {entry : CacheEntry CompiledDocument} {files : List TrackedFile}
    (htrust : config.trust = false) (hkey : keyOf config fs path = .ok key)
    (hleaves : Leaves fs key value cache entry files) (hsettled : Scene.Settled cache)
    (hcache : again.cache = cache)
    (hunchanged : Unchanged config path fs again.disk.files cache) (later : UInt64) :
    (forall other events, Serves config later path false again other events ->
      other = value ∧ events = []) ∧
      (Serves config later path false again value [] <-> ¬ AsksForDirectory fs key.path) ∧
      (AsksForDirectory fs key.path ->
        exists reason, again.events ++ [(key.text, .miss reason), (key.text, .computed)] <+:
          (compile config later path false again).2.events) := by
  have hagain : keyOf config again.disk.files path = .ok key := hunchanged.left.trans hkey
  have hstands := hunchanged.all_stands hkey hleaves.listed
  have hreadable : (Compile.readDocument again.disk.files key.path).isOk = true := by
    obtain ⟨own, hmem, hpath⟩ := hleaves.own
    have hview := hunchanged.right key files hkey hleaves.listed own hmem
    rw [hpath] at hview
    rw [Compile.readDocument_congr (congrArg Prod.snd hview)]
    exact hleaves.readable
  have hstored := hleaves.stored
  have hlisted := hleaves.listed
  rw [← hcache] at hstored hlisted hsettled
  have hsecond := serves_of_listed htrust hagain hsettled hstored hlisted later
  rw [hstands, hleaves.stands, hleaves.value] at hsecond
  refine ⟨hsecond.left, hsecond.right, fun hdirectory => ?_⟩
  have hchanged : files.all (TrackedFile.stands again.disk.files) = false := by
    apply Bool.eq_false_iff.mpr
    intro hall
    rw [hstands] at hall
    exact hleaves.stands.mp hall hdirectory
  exact computes_of_changed htrust hagain hsettled hstored hlisted later hchanged hreadable

/-- A compiler that looks at the files every time and knows no lifetimes, whatever it has
done before, has compiled a document.  When the document and its tracked files are as they
were, compiling it again without force can only give the same value from the cache.  It does
so, by a hit and without a computation, exactly if the first compile was answered by a hit
itself, or the document asks for no directory.  Else it misses and computes. -/
theorem hit_again (htrust : config.trust = false) (httl : config.ttl = none)
    (hreached : Reached config scene) (hlasting : Lasting config scene.disk)
    {next : Scene Workspace CompiledDocument}
    (hfirst : compile config now path forceFresh scene = (.ok value, next))
    (hcache : again.cache = next.cache)
    (hunchanged : Unchanged config path scene.disk.files again.disk.files next.cache)
    (later : UInt64) :
    (forall other events, Serves config later path false again other events ->
      other = value ∧ events = []) ∧
      (Serves config later path false again value [] <->
        (exists earlier, Serves config now path forceFresh scene value earlier) ∨
          forall key, keyOf config scene.disk.files path = .ok key ->
            ¬ AsksForDirectory scene.disk.files key.path) ∧
      (¬ Serves config later path false again value [] ->
        exists key reason, keyOf config scene.disk.files path = .ok key ∧
          again.events ++ [(key.text, .miss reason), (key.text, .computed)] <+:
            (compile config later path false again).2.events) := by
  cases hkey : keyOf config scene.disk.files path with
  | error cause =>
      unfold compile at hfirst
      rw [hkey] at hfirst
      cases hfirst
  | ok key =>
      have hagain : keyOf config again.disk.files path = .ok key := hunchanged.left.trans hkey
      have hsettled : Scene.Settled next.cache := by
        have hnext := (hreached.compile now path forceFresh hlasting).settled htrust httl
        rw [hfirst] at hnext
        exact hnext
      have hway := (hreached.settled htrust httl).way htrust (readsOnly_setup config) now key
        (callOptions config forceFresh) fun _ hloaded => hlasting.loaded hloaded
      cases hway with
      | @served found entry files renewed moved hfinds _ hentry hrecords hcheck hget =>
          obtain ⟨earlier, hevents⟩ := hfinds.events
          rw [compile_eq hkey, hget] at hfirst
          cases hfirst
          obtain ⟨hlisted, hpassed⟩ := listed_of_pass hrecords hcheck
          have hstands : renewed.all (TrackedFile.stands again.disk.files) = true :=
            (hunchanged.all_stands hkey hlisted).trans hpassed
          rw [← hcache] at hlisted hsettled
          have hstored : again.cache.entries.find? key.text = some entry := by
            rw [hcache]
            exact hentry
          have hsecond := serves_of_listed htrust hagain hsettled hstored hlisted later
          have hhit := hsecond.right.mpr hstands
          have hserves := serves_of_hit hkey hfinds.disk hevents hget
          refine ⟨hsecond.left, ?_, fun hnone => absurd hhit hnone⟩
          constructor
          · intro _
            exact Or.inl ⟨earlier, hserves⟩
          · intro _
            exact hhit
      | departs hfinds _ hdeparts =>
          obtain ⟨entry, files, hleaves⟩ := leaves_of_departs hkey hfinds.disk hdeparts hfirst
          obtain ⟨hvalue, hhit, hcomputes⟩ :=
            again_of_leaves htrust hkey hleaves hsettled hcache hunchanged later
          refine ⟨hvalue, hhit.trans ?_, fun hnone => ?_⟩
          · constructor
            · intro hnone
              refine Or.inr fun other hother => ?_
              cases hother
              exact hnone
            · intro hfirst
              rcases hfirst with ⟨earlier, hserves⟩ | hnone
              · exact absurd hserves (not_serves_of_departs hkey hdeparts)
              · exact hnone key rfl
          · rw [hhit, Classical.not_not] at hnone
            obtain ⟨reason, hevents⟩ := hcomputes hnone
            exact ⟨key, reason, rfl, hevents⟩

/-!
# Compilers that keep their results in memory
-/

theorem files_compile (h : config.cacheDirectory = none) (now : UInt64) (path : FilePath)
    (forceFresh : Bool) (scene : Scene Workspace CompiledDocument) :
    (compile config now path forceFresh scene).2.disk.files = scene.disk.files := by
  have hstore : (setup config).store = none := by
    unfold setup
    rw [h]
    rfl
  unfold compile
  cases keyOf config scene.disk.files path with
  | error cause => rfl
  | ok key =>
      dsimp only
      rcases Scene.disk_getOrCompute hstore now key (callOptions config forceFresh)
        (computeKey key) scene with hsame | hcomputed
      · rw [hsame]
      · rw [hcomputed]
        rfl

theorem unchanged_of_eq {fs other : FileSystem} (h : other = fs) (path : FilePath)
    (cache : Cache CompiledDocument) : Unchanged config path fs other cache := by
  rw [h]
  exact ⟨rfl, fun _ _ _ _ _ _ => rfl⟩

theorem leaves_of_new (htrust : config.trust = false) (httl : config.ttl = none)
    (h : config.cacheDirectory = none) {workspace : Workspace}
    (hkey : keyOf config workspace.files path = .ok key)
    (hreadable : (Compile.readDocument workspace.files key.path).isOk = true) (now : UInt64)
    (forceFresh : Bool) :
    exists value next entry files,
      compile config now path forceFresh ⟨.empty, workspace, []⟩ = (.ok value, next) ∧
        next.disk.files = workspace.files ∧ Scene.Settled next.cache ∧
        Leaves workspace.files key value next.cache entry files := by
  let scene : Scene Workspace CompiledDocument := ⟨.empty, workspace, []⟩
  have hopened : keyOf config scene.disk.files path = .ok key := hkey
  have hsettled : Scene.Settled scene.cache := Scene.settled_empty
  have hlasting := lasting_of_none h workspace
  have hway := hsettled.way htrust (readsOnly_setup config) now key
    (callOptions config forceFresh) fun _ hloaded => hlasting.loaded hloaded
  cases hway with
  | served hfinds _ hentry _ _ _ =>
      rcases hfinds.entries with hsame | ⟨persisted, hloaded, _⟩
      · rw [hsame] at hentry
        cases hentry
      · unfold Call.loaded setup at hloaded
        rw [h] at hloaded
        cases hloaded
  | @departs found hfinds _ hdeparts =>
      have houtcome : (computeKey key found.disk).1.isOk = true := by
        rw [hfinds.disk]
        exact (Compile.isOk_compileDocument ..).trans hreadable
      cases hcomputed : (computeKey key found.disk).1 with
      | error cause =>
          rw [hcomputed] at houtcome
          cases houtcome
      | ok computed =>
          obtain ⟨next, created, hget, _⟩ := hdeparts.computed hcomputed
          have hfirst : compile config now path forceFresh scene = (.ok computed.value, next) := by
            rw [compile_eq hopened, hget]
          have hfiles := files_compile h now path forceFresh scene
          have hnext := ((Reached.start workspace).compile now path forceFresh hlasting).settled
            htrust httl
          obtain ⟨entry, files, hleaves⟩ := leaves_of_departs hopened hfinds.disk hdeparts hfirst
          rw [hfirst] at hfiles hnext
          exact ⟨computed.value, next, entry, files, hfirst, hfiles, hnext, hleaves⟩

def desk (page : String) : Workspace where
  files :=
    (((FileSystem.new [] ⟨0, 0⟩).put ["a.mdx"] (.file ⟨page.toUTF8, ⟨0, 0⟩⟩)).put ["b"]
      (.file ⟨⟨#[255]⟩, ⟨0, 0⟩⟩)).put ["d"] .directory
  ledger := .empty

def fileDesk : Workspace :=
  desk "<EmbeddedFile file=\"a.mdx\" />\n<EmbeddedFile file=\"none\" />\n<EmbeddedFile file=\"b\" />\n"

def directoryDesk : Workspace :=
  desk "<EmbeddedFile file=\"d\" />\n"

theorem keyOf_desk (page : String) :
    keyOf .development (desk page).files ⟨"a.mdx"⟩ = .ok (.file ⟨"/a.mdx"⟩) := by
  rfl

theorem hit_again_page :
    exists value next,
      compile .development 0 ⟨"a.mdx"⟩ false ⟨.empty, fileDesk, []⟩ = (.ok value, next) ∧
        Serves .development 1 ⟨"a.mdx"⟩ false next value [] := by
  have hkey : keyOf .development fileDesk.files ⟨"a.mdx"⟩ = _ := keyOf_desk _
  have hreadable : (Compile.readDocument fileDesk.files ⟨"/a.mdx"⟩).isOk = true := by
    decide +kernel
  have hrequested : forall path, path ∈ Compile.requested fileDesk.files ⟨"/a.mdx"⟩ ->
      fileDesk.files.isDirectory path = false := by
    decide +kernel
  obtain ⟨value, next, _, _, hfirst, hfiles, _⟩ :=
    leaves_of_new rfl rfl rfl hkey hreadable 0 false
  have hagain := hit_again rfl rfl (.start fileDesk) (lasting_of_none rfl fileDesk) hfirst rfl
    (unchanged_of_eq hfiles _ _) 1
  refine ⟨value, next, hfirst, hagain.right.left.mpr (Or.inr ?_)⟩
  rintro key hother ⟨path, hpath, _, hdirectory⟩
  cases hkey.symm.trans hother
  rw [hrequested path hpath] at hdirectory
  cases hdirectory

/-- The page that shows a directory is never served from the cache: it is compiled again
although no file has changed. -/
theorem compiled_again_page :
    exists value next reason,
      compile .development 0 ⟨"a.mdx"⟩ false ⟨.empty, directoryDesk, []⟩ = (.ok value, next) ∧
        next.disk.files = directoryDesk.files ∧
        (forall other events, ¬ Serves .development 1 ⟨"a.mdx"⟩ false next other events) ∧
        next.events ++ [("file:/a.mdx", .miss reason), ("file:/a.mdx", .computed)] <+:
          (compile .development 1 ⟨"a.mdx"⟩ false next).2.events := by
  have hkey : keyOf .development directoryDesk.files ⟨"a.mdx"⟩ = _ := keyOf_desk _
  have hreadable : (Compile.readDocument directoryDesk.files ⟨"/a.mdx"⟩).isOk = true := by
    decide +kernel
  have hdirectory : AsksForDirectory directoryDesk.files ⟨"/a.mdx"⟩ := by
    refine ⟨⟨"/d"⟩, ?_, ?_, ?_⟩ <;> decide +kernel
  obtain ⟨value, next, _, _, hfirst, hfiles, hsettled, hleaves⟩ :=
    leaves_of_new rfl rfl rfl hkey hreadable 0 false
  obtain ⟨honly, hhit, hcomputes⟩ :=
    again_of_leaves rfl hkey hleaves hsettled rfl (unchanged_of_eq hfiles _ _) 1
  obtain ⟨reason, hevents⟩ := hcomputes hdirectory
  refine ⟨value, next, reason, hfirst, hfiles, ?_, hevents⟩
  intro other events hserves
  obtain ⟨rfl, rfl⟩ := honly other events hserves
  exact hhit.mp hserves hdirectory

end DocumentCompiler
end LessonPress

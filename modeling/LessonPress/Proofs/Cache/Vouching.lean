import LessonPress.Proofs.Cache.Contents
import LessonPress.Proofs.Cache.Lookup

/-!
# Vouching for files

## What a record says of a file that may change at any moment

The files of a disk are followed from moment to moment.  A tracked file is vouched for
when its fingerprint was read first and bytes with its hash were read after that.  If
the cache can tell every change of the file by the fingerprint, such a record passes a
check only while the file holds bytes with this hash.
-/

namespace LessonPress

def FileSystem.view (fs : FileSystem) (path : FilePath) :
    Except IoError FileSystem.Metadata × Except IoError ByteArray :=
  (fs.stat path, fs.read path)

theorem Fingerprint.read_eq_of_view {fs other : FileSystem} {path : FilePath}
    (h : fs.view path = other.view path) :
    Fingerprint.read fs path = Fingerprint.read other path := by
  have hstat : fs.stat path = other.stat path := congrArg Prod.fst h
  unfold Fingerprint.read
  rw [hstat]

section Moments

variable (files : Nat -> FileSystem) (path : FilePath)

/-- Up to a moment, every change of a file gives it a fingerprint that does not agree
with any it had before. -/
def ToldApart (count : Nat) : Prop :=
  forall moment, moment < count ->
    (files (moment + 1)).view path ≠ (files moment).view path ->
    forall earlier current recorded, earlier ≤ moment ->
      Fingerprint.read (files (moment + 1)) path = .ok current ->
      Fingerprint.read (files earlier) path = .ok recorded ->
      current.agrees recorded = false

def Held (start stop : Nat) (bytes : ByteArray) : Prop :=
  exists moment, start ≤ moment ∧ moment ≤ stop ∧ (files moment).read path = .ok bytes

/-- The fingerprint of the record was read, and bytes with its hash were read after it. -/
def Vouched (stop : Nat) (file : TrackedFile) : Prop :=
  file.missing = false ∧
    exists first second bytes, first ≤ second ∧ second ≤ stop ∧
      Fingerprint.read (files first) path = .ok file.fingerprint ∧
      (files second).read path = .ok bytes ∧ file.contentHash = .of bytes

def Passed (start stop : Nat) (file : TrackedFile) : Prop :=
  Vouched files path stop file ∧
    exists bytes, Held files path start stop bytes ∧ file.contentHash = .of bytes

variable {files path} {start stop later count : Nat} {file : TrackedFile}

theorem Held.mono (hle : stop ≤ later) {bytes : ByteArray} (h : Held files path start stop bytes) :
    Held files path start later bytes := by
  rcases h with ⟨moment, hstart, hstop, hread⟩
  exact ⟨moment, hstart, Nat.le_trans hstop hle, hread⟩

theorem Vouched.mono (hle : stop ≤ later) (h : Vouched files path stop file) :
    Vouched files path later file := by
  rcases h with ⟨hmissing, first, second, bytes, horder, hstop, hread⟩
  exact ⟨hmissing, first, second, bytes, horder, Nat.le_trans hstop hle, hread⟩

theorem Passed.mono (hle : stop ≤ later) (h : Passed files path start stop file) :
    Passed files path start later file := by
  rcases h with ⟨hvouched, bytes, hheld, hhash⟩
  exact ⟨hvouched.mono hle, bytes, hheld.mono hle, hhash⟩

theorem Vouched.path_eq (h : Vouched files path stop file) : file.path = path := by
  rcases h with ⟨_, first, _, _, _, _, hread, _⟩
  exact Fingerprint.path_of_read hread

/-- Between two moments with fingerprints that agree, the file has not changed. -/
theorem ToldApart.view_eq (h : ToldApart files path count) {first middle last : Nat}
    (hfirst : first ≤ middle) (hmiddle : middle ≤ last) (hlast : last ≤ count)
    {current recorded : Fingerprint}
    (hrecorded : Fingerprint.read (files first) path = .ok recorded)
    (hcurrent : Fingerprint.read (files last) path = .ok current)
    (hagrees : current.agrees recorded = true) :
    (files last).view path = (files middle).view path := by
  induction hmiddle with
  | refl => rfl
  | @step last hle ih =>
      by_cases hview : (files (last + 1)).view path = (files last).view path
      · rw [hview]
        apply ih (Nat.le_of_succ_le hlast)
        rw [← Fingerprint.read_eq_of_view hview]
        exact hcurrent
      · have hfalse := h last hlast hview first current recorded (Nat.le_trans hfirst hle)
          hcurrent hrecorded
        rw [hagrees] at hfalse
        cases hfalse

theorem Vouched.passed_of_glance (h : Vouched files path stop file)
    (htold : ToldApart files path count) (hcount : stop ≤ count) (hstart : start ≤ stop)
    (hglance : file.glance (Fingerprint.read (files stop) file.path) = .same) :
    Passed files path start stop file := by
  have hvouched := h
  rw [h.path_eq] at hglance
  rcases h with ⟨hmissing, first, second, bytes, horder, hstop, hrecorded, hread, hhash⟩
  rcases TrackedFile.glance_same hglance hmissing with ⟨current, hcurrent, hagrees⟩
  refine ⟨hvouched, bytes, ⟨stop, hstart, Nat.le_refl _, ?_⟩, hhash⟩
  have hview := htold.view_eq horder hstop hcount hrecorded hcurrent hagrees
  have hsame : (files stop).read path = (files second).read path := congrArg Prod.snd hview
  rw [hsame]
  exact hread

theorem passed_of_refresh {current : Fingerprint} {updated : TrackedFile} {first : Nat}
    (hstart : start ≤ stop) (hfirst : first ≤ stop)
    (hcurrent : Fingerprint.read (files first) path = .ok current)
    (hrefresh : file.refresh current ((files stop).read path) = some updated) :
    Passed files path start stop updated := by
  rcases TrackedFile.refresh_eq_some hrefresh with ⟨hupdated, bytes, hread, hhash⟩
  rw [hupdated]
  exact ⟨⟨rfl, first, stop, bytes, hfirst, Nat.le_refl _, hcurrent, hread, hhash.symm⟩,
    bytes, ⟨stop, hstart, Nat.le_refl _, hread⟩, hhash.symm⟩

/-!
# Lists of tracked files

Only the first file of a list matters here: the key's own.
-/

def Headed (files : Nat -> FileSystem) (path : FilePath) (stop : Nat) :
    List TrackedFile -> Prop
  | [] => True
  | own :: _ => Vouched files path stop own

def HeadPassed (files : Nat -> FileSystem) (path : FilePath) (start stop : Nat) :
    List TrackedFile -> Prop
  | [] => True
  | own :: _ => Passed files path start stop own

theorem Headed.mono (hle : stop ≤ later) {tracked : List TrackedFile}
    (h : Headed files path stop tracked) : Headed files path later tracked := by
  cases tracked with
  | nil => exact trivial
  | cons own rest => exact Vouched.mono hle h

theorem HeadPassed.mono (hle : stop ≤ later) {checked : List TrackedFile}
    (h : HeadPassed files path start stop checked) :
    HeadPassed files path start later checked := by
  cases checked with
  | nil => exact trivial
  | cons own rest => exact Passed.mono hle h

theorem HeadPassed.headed {checked : List TrackedFile}
    (h : HeadPassed files path start stop checked) : Headed files path stop checked := by
  cases checked with
  | nil => exact trivial
  | cons own rest => exact h.left

theorem HeadPassed.append {checked : List TrackedFile}
    (h : HeadPassed files path start stop checked)
    (hfirst : checked = [] -> Passed files path start stop file) :
    HeadPassed files path start stop (checked ++ [file]) := by
  cases checked with
  | nil => exact hfirst rfl
  | cons own rest => exact h

theorem addFiles_cons (own : TrackedFile) (tracked dependencies : List TrackedFile) :
    exists rest, Call.addFiles (own :: tracked) dependencies = own :: rest := by
  induction dependencies generalizing tracked with
  | nil => exact ⟨tracked, rfl⟩
  | cons dependency further ih =>
      unfold Call.addFiles
      split
      · exact ih tracked
      · exact ih (tracked ++ [dependency])

theorem pairwise_addFiles {tracked : List TrackedFile}
    (h : tracked.Pairwise fun file other => file.path.same other.path = false)
    (dependencies : List TrackedFile) :
    (Call.addFiles tracked dependencies).Pairwise fun file other =>
      file.path.same other.path = false := by
  induction dependencies generalizing tracked with
  | nil => exact h
  | cons dependency rest ih =>
      unfold Call.addFiles
      split
      · exact ih h
      · rename_i hnew
        apply ih
        rw [List.pairwise_append]
        refine ⟨h, List.pairwise_singleton _ _, ?_⟩
        intro file hfile other hother
        rw [List.mem_singleton.mp hother]
        simp only [Bool.not_eq_true, List.any_eq_false] at hnew
        exact hnew file hfile

theorem headed_trackedFiles {primary : Option TrackedFile}
    (h : forall own, primary = some own -> Vouched files path stop own)
    (dependencies : List TrackedFile) :
    Headed files path stop (Call.trackedFiles primary dependencies) := by
  cases primary with
  | none => exact trivial
  | some own =>
      rcases addFiles_cons own [] dependencies with ⟨rest, hrest⟩
      change Headed files path stop (Call.addFiles [own] dependencies)
      rw [hrest]
      exact h own rfl

end Moments

/-!
# Steps
-/

section Steps

variable {sigma alpha : Type} (files : Nat -> FileSystem) (path : FilePath)
  (stored : Nat -> CacheEntry alpha -> Prop)

def Made (stop : Nat) (entry : CacheEntry alpha) : Prop :=
  exists moment, moment < stop ∧ stored moment entry

def Phase.Backed (start stop : Nat) : Phase alpha -> Prop
  | restoring (.ok (some persisted)) =>
      Made stored stop persisted.entry ∧ Headed files path stop persisted.tracked
  | scanning entry checked _ pending =>
      Made stored stop entry ∧ HeadPassed files path start stop checked ∧
        (checked = [] -> Headed files path stop pending)
  | hashing entry checked file current _ =>
      Made stored stop entry ∧ HeadPassed files path start stop checked ∧
        (checked = [] -> Vouched files path stop file ∧
          exists first, first ≤ stop ∧ Fingerprint.read (files first) path = .ok current)
  | reading _ fingerprint =>
      exists first, first ≤ stop ∧ Fingerprint.read (files first) path = .ok fingerprint
  | computing _ primary => forall own, primary = some own -> Vouched files path stop own
  | saving _ persisted =>
      Made stored stop persisted.entry ∧ Headed files path stop persisted.tracked
  | _ => True

def Yield.Backed (start stop : Nat) : Yield alpha -> Prop
  | checked entry tracked => Made stored stop entry ∧ HeadPassed files path start stop tracked
  | rechecked entry _ => Made stored stop entry
  | _ => True

structure Cache.Backed (stop : Nat) (key : String) (cache : Cache alpha) : Prop where
  entry : forall entry, cache.entries.find? key = some entry -> Made stored stop entry
  record : forall tracked, cache.records.find? key = some tracked ->
    Headed files path stop tracked

variable {files path stored} {start stop later count : Nat}

theorem Made.mono (hle : stop ≤ later) {entry : CacheEntry alpha} (h : Made stored stop entry) :
    Made stored later entry := by
  rcases h with ⟨moment, hlt, hstored⟩
  exact ⟨moment, Nat.lt_of_lt_of_le hlt hle, hstored⟩

theorem Phase.Backed.mono (hle : stop ≤ later) {phase : Phase alpha}
    (h : phase.Backed files path stored start stop) :
    phase.Backed files path stored start later := by
  cases phase with
  | restoring loaded =>
      cases loaded with
      | error cause => exact trivial
      | ok found =>
          cases found with
          | none => exact trivial
          | some persisted => exact ⟨h.left.mono hle, h.right.mono hle⟩
  | scanning entry checked touched pending =>
      exact ⟨h.left.mono hle, h.right.left.mono hle, fun hnil => (h.right.right hnil).mono hle⟩
  | hashing entry checked file current pending =>
      refine ⟨h.left.mono hle, h.right.left.mono hle, ?_⟩
      intro hnil
      rcases h.right.right hnil with ⟨hvouched, first, hfirst, hread⟩
      exact ⟨hvouched.mono hle, first, Nat.le_trans hfirst hle, hread⟩
  | reading ticket fingerprint =>
      rcases h with ⟨first, hfirst, hread⟩
      exact ⟨first, Nat.le_trans hfirst hle, hread⟩
  | computing ticket primary => exact fun own hown => (h own hown).mono hle
  | saving ticket persisted => exact ⟨h.left.mono hle, h.right.mono hle⟩
  | _ => exact trivial

theorem Yield.Backed.mono (hle : stop ≤ later) {yield : Yield alpha}
    (h : yield.Backed files path stored start stop) :
    yield.Backed files path stored start later := by
  cases yield with
  | checked entry tracked => exact ⟨h.left.mono hle, h.right.mono hle⟩
  | rechecked entry now => exact Made.mono hle h
  | _ => exact trivial

theorem Cache.Backed.mono (hle : stop ≤ later) {key : String} {cache : Cache alpha}
    (h : cache.Backed files path stored stop key) : cache.Backed files path stored later key where
  entry := fun entry hentry => (h.entry entry hentry).mono hle
  record := fun tracked htracked => (h.record tracked htracked).mono hle

namespace Call

variable {setup : CacheSetup sigma alpha} {now : UInt64} {call : Call alpha}
  {scene : Scene sigma alpha}

theorem step_backed [Disk sigma] (hfiles : files stop = Disk.files scene.disk)
    (hpath : call.key.path = path) (hstart : start ≤ stop)
    (htold : ToldApart files path count) (hcount : stop ≤ count)
    (hcache : scene.cache.Backed files path stored stop call.keyText)
    (hloaded : forall store persisted, call.phase = .loading -> setup.store = some store ->
      (store.load call.keyText scene.disk).1 = .ok (some persisted) ->
      Made stored stop persisted.entry ∧ Headed files path stop persisted.tracked)
    (h : call.phase.Backed files path stored start stop) :
    (call.step setup now scene).1.phase.Backed files path stored start stop := by
  unfold step
  cases hphase : call.phase with
  | opening =>
      rcases openCall_sought setup now call scene with ⟨phase, hnext, hsought⟩
      change (call.openCall setup now scene).1.phase.Backed _ _ _ _ _
      rw [hnext]
      cases hsought with
      | scanning hlisted =>
          exact ⟨hcache.entry _ hlisted.left, trivial, fun _ => hcache.record _ hlisted.right⟩
      | _ => exact trivial
  | loading =>
      dsimp only [load]
      split
      · exact trivial
      · rename_i store hstore
        dsimp only
        cases hload : (store.load call.keyText scene.disk).1 with
        | error cause => exact trivial
        | ok found =>
            cases found with
            | none => exact trivial
            | some persisted => exact hloaded store persisted hphase hstore hload
  | restoring loaded =>
      rw [hphase] at h
      rcases restore_sought setup now call scene loaded with ⟨phase, hnext, hsought⟩
      change (call.restore setup now scene loaded).1.phase.Backed _ _ _ _ _
      rw [hnext]
      cases hsought with
      | scanning hlisted =>
          rcases hlisted with hlisted | ⟨persisted, hpersisted, hentry, hfiles⟩
          · exact ⟨hcache.entry _ hlisted.left, trivial, fun _ => hcache.record _ hlisted.right⟩
          · rw [hpersisted] at h
            rw [← hentry, ← hfiles]
            exact ⟨h.left, trivial, fun _ => h.right⟩
      | _ => exact trivial
  | scanning entry checked touched pending =>
      rw [hphase] at h
      obtain ⟨hentry, hchecked, hpending⟩ := h
      dsimp only [scan]
      cases pending with
      | nil => exact trivial
      | cons file rest =>
          dsimp only
          rw [← hfiles]
          split
          · rename_i hsame
            refine ⟨hentry, hchecked.append ?_, ?_⟩
            · intro hnil
              exact Vouched.passed_of_glance (hpending hnil) htold hcount hstart hsame
            · intro hnil
              simp at hnil
          · rename_i current hmoved
            refine ⟨hentry, hchecked, ?_⟩
            intro hnil
            have hvouched : Vouched files path stop file := hpending hnil
            refine ⟨hvouched, stop, Nat.le_refl _, ?_⟩
            rw [← hvouched.path_eq]
            exact (TrackedFile.glance_moved hmoved).left
          · exact trivial
  | hashing entry checked file current pending =>
      rw [hphase] at h
      obtain ⟨hentry, hchecked, hfile⟩ := h
      dsimp only [compare]
      rw [← hfiles]
      split
      · rename_i updated hrefresh
        refine ⟨hentry, hchecked.append ?_, ?_⟩
        · intro hnil
          rcases hfile hnil with ⟨hvouched, first, hfirst, hcurrent⟩
          rw [hvouched.path_eq] at hrefresh
          exact passed_of_refresh hstart hfirst hcurrent hrefresh
        · intro hnil
          simp at hnil
      · exact trivial
  | missed stale seen =>
      dsimp only [enter]
      split
      · exact trivial
      · split <;> exact trivial
  | capturing ticket =>
      dsimp only [capture]
      rw [← hfiles, hpath]
      split
      · rename_i fingerprint hread
        exact ⟨stop, Nat.le_refl _, hread⟩
      · intro own hown
        cases hown
  | reading ticket fingerprint =>
      rw [hphase] at h
      rcases h with ⟨first, hfirst, hread⟩
      dsimp only [read]
      rw [← hfiles, hpath]
      split
      · rename_i bytes hbytes
        intro own hown
        cases hown
        exact ⟨rfl, first, stop, bytes, hfirst, Nat.le_refl _, hread, hbytes, rfl⟩
      · intro own hown
        cases hown
  | computing ticket primary =>
      dsimp only
      exact h
  | saving ticket persisted =>
      dsimp only [save]
      split <;> exact trivial
  | saved ticket value outcome =>
      dsimp only [supersede]
      split
      · exact trivial
      · split <;> exact trivial
  | removing ticket value previous => exact trivial
  | removed ticket value previous outcome => exact trivial
  | waiting ticket =>
      dsimp only [receive]
      split
      · exact h
      · split <;> exact trivial
  | done result => exact h

theorem step_cache_backed [Disk sigma] {key : String}
    (hcache : scene.cache.Backed files path stored stop key)
    (h : call.keyText = key -> call.phase.Backed files path stored start stop) :
    (call.step setup now scene).2.cache.Backed files path stored stop key where
  entry := by
    intro entry hentry
    rcases (step_turn setup now call scene).entry_cases hentry with
      hold | ⟨hkey, persisted, hphase, hnew⟩
    · exact hcache.entry entry hold
    · have hbacked := h hkey.symm
      rw [hphase] at hbacked
      rw [hnew]
      exact hbacked.left
  record := by
    intro tracked htracked
    rcases (step_turn setup now call scene).record_cases htracked with
      hold | ⟨hkey, ⟨persisted, hphase, hnew⟩ | ⟨entry, hphase⟩⟩
    · exact hcache.record tracked hold
    · have hbacked := h hkey.symm
      rw [hphase] at hbacked
      rw [hnew]
      exact hbacked.right
    · have hbacked := h hkey.symm
      rw [hphase] at hbacked
      exact hbacked.right.left.headed

theorem yield?_backed {yield : Yield alpha}
    (hcache : scene.cache.Backed files path stored stop call.keyText)
    (h : call.phase.Backed files path stored start stop)
    (hyield : call.yield? setup now scene = some yield) :
    yield.Backed files path stored start stop := by
  have htrusted : forall lookup : Option (CacheEntry alpha),
      (if setup.trust = true then lookup.map Yield.trusted else none) = some yield ->
      yield.Backed files path stored start stop := by
    intro lookup htrust
    split at htrust
    · obtain ⟨entry, _, hentry⟩ := Option.map_eq_some_iff.mp htrust
      rw [← hentry]
      exact trivial
    · cases htrust
  unfold yield? at hyield
  cases hphase : call.phase with
  | opening =>
      rw [hphase] at hyield
      exact htrusted _ hyield
  | restoring loaded =>
      rw [hphase] at hyield
      exact htrusted _ hyield
  | scanning entry checked touched pending =>
      rw [hphase] at h hyield
      cases pending with
      | nil =>
          cases hyield
          exact ⟨h.left, h.right.left⟩
      | cons file rest => cases hyield
  | missed stale seen =>
      rw [hphase] at hyield
      dsimp only at hyield
      split at hyield
      · cases hyield
      · obtain ⟨entry, hnewer, hentry⟩ := Option.map_eq_some_iff.mp hyield
        rw [← hentry]
        exact hcache.entry entry (newerEntry_allowed hnewer).right.left
  | _ =>
      rw [hphase] at hyield
      cases hyield

theorem complete_backed {outcome : Except Error (Computed alpha)}
    (hstored : forall ticket primary computed, call.phase = .computing ticket primary ->
      outcome = .ok computed ->
      stored stop (call.keep now scene.cache primary computed).1.entry)
    (h : call.phase.Backed files path stored start stop) :
    (call.complete now scene outcome).1.phase.Backed files path stored start (stop + 1) := by
  unfold complete
  split
  · rename_i ticket primary hphase
    cases outcome with
    | error cause => exact trivial
    | ok computed =>
        rw [hphase] at h
        refine ⟨⟨stop, Nat.lt_succ_self _, hstored ticket primary computed hphase rfl⟩, ?_⟩
        exact (headed_trackedFiles h _).mono (Nat.le_succ _)
  · exact h.mono (Nat.le_succ _)

theorem complete_cache_backed {key : String} {outcome : Except Error (Computed alpha)}
    (hcache : scene.cache.Backed files path stored stop key)
    (hstored : call.keyText = key -> forall ticket primary computed,
      call.phase = .computing ticket primary -> outcome = .ok computed ->
      stored stop (call.keep now scene.cache primary computed).1.entry)
    (h : call.keyText = key -> call.phase.Backed files path stored start stop) :
    (call.complete now scene outcome).2.cache.Backed files path stored (stop + 1) key where
  entry := by
    intro entry hentry
    rcases complete_entry_cases hentry with
      hold | ⟨hkey, ticket, primary, computed, hphase, houtcome, hnew⟩
    · exact (hcache.entry entry hold).mono (Nat.le_succ _)
    · rw [hnew]
      exact ⟨stop, Nat.lt_succ_self _, hstored hkey.symm ticket primary computed hphase houtcome⟩
  record := by
    intro tracked htracked
    rcases complete_record_cases htracked with
      hold | ⟨hkey, ticket, own, computed, hphase, _, hnew⟩
    · exact (hcache.record tracked hold).mono (Nat.le_succ _)
    · have hbacked := h hkey.symm
      rw [hphase] at hbacked
      rw [hnew]
      exact (headed_trackedFiles hbacked _).mono (Nat.le_succ _)

end Call
end Steps
end LessonPress

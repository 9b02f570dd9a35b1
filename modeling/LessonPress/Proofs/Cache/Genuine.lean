import LessonPress.Proofs.Cache.Backing
import LessonPress.Proofs.Cache.Decision
import LessonPress.Proofs.Cache.Serial

/-!
# Genuine records

## Tracked files whose fingerprint and content belong to one state of the file

If equal fingerprints mean equal bytes, a check of a genuine record does not depend on
its fingerprint.  The records that a cache makes by itself are genuine as long as the
files stay as they are between the two looks that it takes at a file.
-/

namespace LessonPress

/-- Whenever two fingerprints of the path agree, the same bytes are there. -/
def Decides (seen : FileSystem -> Prop) (path : FilePath) : Prop :=
  forall fs other current recorded, seen fs -> seen other ->
    Fingerprint.read fs path = .ok current -> Fingerprint.read other path = .ok recorded ->
    current.agrees recorded = true -> fs.read path = other.read path

namespace TrackedFile

/-- Fingerprint and content were there at the same time, or the file was missing. -/
def Genuine (seen : FileSystem -> Prop) (file : TrackedFile) : Prop :=
  file.missing = true ∨
    exists fs bytes, seen fs ∧ Fingerprint.read fs file.path = .ok file.fingerprint ∧
      fs.read file.path = .ok bytes ∧ file.contentHash = .of bytes

def isAsRecorded (fs : FileSystem) (file : TrackedFile) : Bool :=
  match Fingerprint.read fs file.path, fs.read file.path with
  | .error _, _ => file.missing
  | .ok _, .ok bytes => !file.missing && decide (ContentHash.of bytes = file.contentHash)
  | .ok _, .error _ => false

theorem Follows.isAsRecorded_eq {file stored : TrackedFile} (h : file.Follows stored)
    (fs : FileSystem) : file.isAsRecorded fs = stored.isAsRecorded fs := by
  unfold isAsRecorded
  rw [h.path, h.contentHash, h.missing]

theorem Genuine.stands_eq {seen : FileSystem -> Prop} {fs : FileSystem} {file : TrackedFile}
    (h : file.Genuine seen) (hseen : seen fs) (hdecides : Decides seen file.path) :
    file.stands fs = file.isAsRecorded fs := by
  rw [TrackedFile.stands_eq]
  unfold isAsRecorded glance
  cases hcurrent : Fingerprint.read fs file.path with
  | error cause =>
      dsimp only
      cases file.missing <;> rfl
  | ok current =>
      dsimp only
      cases hmissing : file.missing with
      | true =>
          cases fs.read file.path <;> rfl
      | false =>
          cases hagrees : current.agrees file.fingerprint with
          | true =>
              rcases h with habsent | ⟨other, bytes, hother, hrecorded, hread, hhash⟩
              · rw [hmissing] at habsent
                cases habsent
              · have hbytes := hdecides fs other current file.fingerprint hseen hother hcurrent
                  hrecorded hagrees
                rw [hbytes, hread, hhash]
                simp
          | false =>
              dsimp only [refresh]
              cases fs.read file.path with
              | error cause => rfl
              | ok bytes =>
                  dsimp only
                  by_cases hhash : ContentHash.of bytes = file.contentHash
                  · simp [hhash]
                  · simp [hhash]

end TrackedFile

def AllGenuine (seen : FileSystem -> Prop) (files : List TrackedFile) : Prop :=
  forall file, file ∈ files -> file.Genuine seen

/-- Records that differ in their fingerprints only come to the same check. -/
theorem isOk_checkList_eq {seen : FileSystem -> Prop} {fs : FileSystem} (hseen : seen fs)
    {files stored : List TrackedFile} (hfollows : List.Forall₂ TrackedFile.Follows files stored)
    (hfiles : AllGenuine seen files) (hstored : AllGenuine seen stored)
    (hdecides : forall file, file ∈ stored -> Decides seen file.path) :
    (FileRecords.checkList fs files).isOk = (FileRecords.checkList fs stored).isOk := by
  rw [FileRecords.isOk_checkList, FileRecords.isOk_checkList]
  induction hfollows with
  | nil => rfl
  | @cons file other files stored hfollows _ ih =>
      have hother := hdecides other List.mem_cons_self
      have hfile : Decides seen file.path := by
        rw [hfollows.path]
        exact hother
      rw [List.all_cons, List.all_cons,
        (hfiles file List.mem_cons_self).stands_eq hseen hfile,
        (hstored other List.mem_cons_self).stands_eq hseen hother, hfollows.isAsRecorded_eq fs,
        ih (fun file hmem => hfiles file (List.mem_cons_of_mem _ hmem))
          (fun file hmem => hstored file (List.mem_cons_of_mem _ hmem))
          (fun file hmem => hdecides file (List.mem_cons_of_mem _ hmem))]

/-!
# Calls
-/

theorem Call.mem_addFiles {file : TrackedFile} {tracked dependencies : List TrackedFile}
    (h : file ∈ Call.addFiles tracked dependencies) : file ∈ tracked ∨ file ∈ dependencies := by
  induction dependencies generalizing tracked with
  | nil => exact Or.inl h
  | cons dependency rest ih =>
      unfold Call.addFiles at h
      split at h
      · rcases ih h with hold | hrest
        · exact Or.inl hold
        · exact Or.inr (List.mem_cons_of_mem _ hrest)
      · rcases ih h with hold | hrest
        · rcases List.mem_append.mp hold with hold | hnew
          · exact Or.inl hold
          · rw [List.mem_singleton.mp hnew]
            exact Or.inr List.mem_cons_self
        · exact Or.inr (List.mem_cons_of_mem _ hrest)

theorem allGenuine_trackedFiles {seen : FileSystem -> Prop} {primary : Option TrackedFile}
    (hprimary : forall file, primary = some file -> file.Genuine seen)
    {dependencies : List TrackedFile} (hdependencies : AllGenuine seen dependencies) :
    AllGenuine seen (Call.trackedFiles primary dependencies) := by
  intro file hmem
  cases primary with
  | none => cases hmem
  | some own =>
      rcases Call.mem_addFiles hmem with hown | hdependency
      · exact hprimary file (congrArg some (List.mem_singleton.mp hown).symm)
      · exact hdependencies file hdependency

namespace Call

variable {sigma alpha : Type}

/-- What a call has at hand of tracked files is genuine.  Between its two looks at a file
the fingerprint is the one that the file still has. -/
def Genuine (seen : FileSystem -> Prop) (fs : FileSystem) (call : Call alpha) : Prop :=
  match call.phase with
  | .restoring loaded =>
      forall persisted, loaded = .ok (some persisted) -> AllGenuine seen persisted.tracked
  | .scanning _ checked _ pending => AllGenuine seen checked ∧ AllGenuine seen pending
  | .hashing _ checked file current pending =>
      AllGenuine seen checked ∧ AllGenuine seen pending ∧
        Fingerprint.read fs file.path = .ok current
  | .reading _ fingerprint => Fingerprint.read fs call.key.path = .ok fingerprint
  | .computing _ primary => forall file, primary = some file -> file.Genuine seen
  | .saving _ persisted => AllGenuine seen persisted.tracked
  | _ => True

def Looks (call : Call alpha) : Prop :=
  match call.phase with
  | .hashing _ _ _ _ _ => True
  | .reading _ _ => True
  | _ => False

theorem Genuine.of_not_looks {seen : FileSystem -> Prop} {fs : FileSystem} {call : Call alpha}
    (h : call.Genuine seen fs) (hlooks : ¬ call.Looks) (other : FileSystem) :
    call.Genuine seen other := by
  unfold Genuine at h ⊢
  unfold Looks at hlooks
  cases hphase : call.phase with
  | hashing entry checked file current pending =>
      rw [hphase] at hlooks
      exact absurd trivial hlooks
  | reading ticket fingerprint =>
      rw [hphase] at hlooks
      exact absurd trivial hlooks
  | _ =>
      rw [hphase] at h
      exact h

section Step

variable {setup : CacheSetup sigma alpha} {now : UInt64} {call : Call alpha}
  {scene : Scene sigma alpha} {seen : FileSystem -> Prop}

theorem allGenuine_nil : AllGenuine seen [] :=
  fun _ hmem => (List.not_mem_nil hmem).elim

theorem allGenuine_append {checked : List TrackedFile} {file : TrackedFile}
    (hchecked : AllGenuine seen checked) (hfile : file.Genuine seen) :
    AllGenuine seen (checked ++ [file]) := by
  intro other hmem
  rcases List.mem_append.mp hmem with hold | hnew
  · exact hchecked other hold
  · rw [List.mem_singleton.mp hnew]
    exact hfile

theorem complete_genuine {outcome : Except Error (Computed alpha)} {fs : FileSystem}
    (hcall : call.Genuine seen fs)
    (hreported : forall computed, outcome = .ok computed ->
      AllGenuine seen computed.dependencies) :
    (call.complete now scene outcome).1.Genuine seen fs := by
  unfold complete
  split
  · rename_i ticket primary hphase
    unfold Genuine at hcall
    rw [hphase] at hcall
    cases outcome with
    | error cause => exact trivial
    | ok computed => exact allGenuine_trackedFiles hcall (hreported computed rfl)
  · exact hcall

variable [Disk sigma] {store : Store sigma alpha}

theorem genuine_of_looks {fs : FileSystem} {path : FilePath} {current : Fingerprint}
    {bytes : ByteArray} (hseen : seen fs) (hcurrent : Fingerprint.read fs path = .ok current)
    (hread : fs.read path = .ok bytes) :
    TrackedFile.Genuine seen (.ofBytes current bytes) := by
  have hpath := Fingerprint.path_of_read hcurrent
  refine Or.inr ⟨fs, bytes, hseen, ?_, ?_, rfl⟩
  · change Fingerprint.read fs current.path = .ok current
    rw [hpath]
    exact hcurrent
  · change fs.read current.path = .ok bytes
    rw [hpath]
    exact hread

theorem step_genuine (hstore : setup.store = some store) (hseen : seen (Disk.files scene.disk))
    (hcall : call.Genuine seen (Disk.files scene.disk))
    (hrecords : forall files,
      scene.cache.records.find? call.keyText = some files -> AllGenuine seen files)
    (hfound : forall persisted, store.found call.keyText scene.disk = .ok (some persisted) ->
      AllGenuine seen persisted.tracked) :
    (call.step setup now scene).1.Genuine seen
      (Disk.files (call.step setup now scene).2.disk) := by
  unfold step
  unfold Genuine at hcall
  cases hphase : call.phase with
  | opening =>
      rcases openCall_sought setup now call scene with ⟨phase, hnext, hsought⟩
      change (call.openCall setup now scene).1.Genuine _ _
      rw [hnext]
      cases hsought with
      | scanning hlisted => exact ⟨allGenuine_nil, hrecords _ hlisted.right⟩
      | _ => exact trivial
  | loading =>
      dsimp only [load]
      rw [hstore]
      exact hfound
  | restoring loaded =>
      rw [hphase] at hcall
      rcases restore_sought setup now call scene loaded with ⟨phase, hnext, hsought⟩
      change (call.restore setup now scene loaded).1.Genuine _ _
      rw [hnext]
      cases hsought with
      | scanning hlisted =>
          rcases hlisted with hlisted | ⟨persisted, hpersisted, _, hfiles⟩
          · exact ⟨allGenuine_nil, hrecords _ hlisted.right⟩
          · rw [← hfiles]
            exact ⟨allGenuine_nil, hcall persisted hpersisted⟩
      | _ => exact trivial
  | scanning entry checked touched pending =>
      rw [hphase] at hcall
      dsimp only [scan]
      cases pending with
      | nil => exact trivial
      | cons file pending =>
          have hfile := hcall.right file List.mem_cons_self
          have hpending : AllGenuine seen pending :=
            fun other hmem => hcall.right other (List.mem_cons_of_mem _ hmem)
          dsimp only
          split
          · exact ⟨allGenuine_append hcall.left hfile, hpending⟩
          · rename_i current hglance
            exact ⟨hcall.left, hpending, (TrackedFile.glance_moved hglance).left⟩
          · exact trivial
  | hashing entry checked file current pending =>
      rw [hphase] at hcall
      dsimp only [compare]
      split
      · rename_i updated hupdated
        rcases TrackedFile.refresh_eq_some hupdated with ⟨hupdated, bytes, hread, hhash⟩
        refine ⟨allGenuine_append hcall.left ?_, hcall.right.left⟩
        rw [hupdated, ← hhash]
        exact genuine_of_looks hseen hcall.right.right hread
      · exact trivial
  | missed stale seen =>
      dsimp only [enter]
      split
      · exact trivial
      · split <;> exact trivial
  | capturing ticket =>
      dsimp only [capture]
      split
      · rename_i fingerprint hfingerprint
        exact hfingerprint
      · intro file hfile
        cases hfile
  | reading ticket fingerprint =>
      rw [hphase] at hcall
      dsimp only [read]
      split
      · rename_i bytes hread
        intro file hfile
        cases hfile
        exact genuine_of_looks hseen hcall hread
      · intro file hfile
        cases hfile
  | computing ticket primary =>
      unfold Genuine
      rw [hphase] at hcall ⊢
      exact hcall
  | saving ticket persisted =>
      dsimp only [save]
      rw [hstore]
      exact trivial
  | saved ticket value outcome =>
      dsimp only [supersede]
      split
      · exact trivial
      · split <;> exact trivial
  | removing ticket value previous => exact trivial
  | removed ticket value previous outcome => exact trivial
  | waiting ticket =>
      dsimp only [receive]
      split
      · unfold Genuine
        rw [hphase]
        exact trivial
      · split <;> exact trivial
  | done result =>
      unfold Genuine
      rw [hphase]
      exact trivial

end Step
end Call

/-!
# Runs
-/

namespace Crowd

variable {sigma alpha : Type} [Disk sigma]

/-- What is reported to the cache is genuine, and so is what the store has at first; and
no file changes between the two looks of a call that gets the key. -/
structure Sincere (setup : CacheSetup sigma alpha) (moves : Nat -> Move sigma alpha)
    (store : Store sigma alpha) (key : String) (count : Nat) (seen : FileSystem -> Prop)
    (crowd : Crowd sigma alpha) : Prop where
  watched : forall moment, moment ≤ count -> seen (crowd.filesAt setup moves moment)
  calm : forall moment index caller, moment < count ->
    (crowd.after setup moves moment).callers[index]? = some caller -> caller.keyText = key ->
    caller.call.Looks -> (forall now, moves moment ≠ .advance index now) ->
    crowd.filesAt setup moves (moment + 1) = crowd.filesAt setup moves moment
  reported : forall moment index now computed, moment < count ->
    moves moment = .deliver index now (.ok computed) -> AllGenuine seen computed.dependencies
  first : forall persisted, crowd.foundAt setup moves store key 0 = .ok (some persisted) ->
    AllGenuine seen persisted.tracked

structure Genuine (store : Store sigma alpha) (key : String) (seen : FileSystem -> Prop)
    (crowd : Crowd sigma alpha) : Prop where
  found : forall persisted, store.found key crowd.scene.disk = .ok (some persisted) ->
    AllGenuine seen persisted.tracked
  records : forall files, crowd.scene.cache.records.find? key = some files ->
    AllGenuine seen files
  calls : forall caller, caller ∈ crowd.callers -> caller.keyText = key ->
    caller.call.Genuine seen (Disk.files crowd.scene.disk)

section Next

variable {setup : CacheSetup sigma alpha} {moves : Nat -> Move sigma alpha}
  {json : JsonStore alpha} {store : Store sigma alpha} {key : String} {count moment : Nat}
  {seen : FileSystem -> Prop} {crowd : Crowd sigma alpha}

theorem genuine_foundAt (h : (crowd.after setup moves moment).Genuine store key seen)
    (hmirrored : (crowd.after setup moves moment).Mirrored store key)
    (hcodec : json.codec.Faithful)
    (hretains : crowd.Retains setup moves json store key count)
    (hexact : crowd.Exact setup moves key count) (hlt : moment < count)
    {persisted : PersistedEntry alpha}
    (hfound : crowd.foundAt setup moves store key (moment + 1) = .ok (some persisted)) :
    AllGenuine seen persisted.tracked := by
  by_cases hsaves : exists saved,
      (crowd.after setup moves moment).Saves (moves moment) saved ∧ saved.key = key
  · rcases hsaves with ⟨saved, hsaves, hkey⟩
    rw [hretains.saved moment saved hlt hsaves hkey,
      JsonStore.reread_eq hcodec (hexact moment saved hlt hsaves hkey)] at hfound
    cases hfound
    rcases hsaves with ⟨index, now, caller, _, hcaller, ticket, hphase⟩
    have hmem := List.mem_of_getElem? hcaller
    have hmirrors := hmirrored.calls caller hmem
    unfold Call.Mirrors at hmirrors
    rw [hphase] at hmirrors
    have hgenuine := h.calls caller hmem (hmirrors.left.symm.trans hkey)
    unfold Call.Genuine at hgenuine
    rw [hphase] at hgenuine
    exact hgenuine
  · by_cases hremoves : (crowd.after setup moves moment).Removes (moves moment) key
    · rw [hretains.removed moment hlt hremoves] at hfound
      cases hfound
    · rw [hretains.kept moment hlt (fun saved hsave hkey => hsaves ⟨saved, hsave, hkey⟩)
        hremoves] at hfound
      exact h.found persisted hfound

theorem Genuine.advance {index : Nat} {now : UInt64} (h : crowd.Genuine store key seen)
    (hstore : setup.store = some store) (hseen : seen (Disk.files crowd.scene.disk))
    (hfound : forall persisted,
      store.found key (crowd.play setup (.advance index now)).scene.disk = .ok (some persisted) ->
      AllGenuine seen persisted.tracked)
    (hcalm : forall place caller, place ≠ index -> crowd.callers[place]? = some caller ->
      caller.keyText = key -> caller.call.Looks ->
      Disk.files (crowd.play setup (.advance index now)).scene.disk =
        Disk.files crowd.scene.disk) :
    (crowd.play setup (.advance index now)).Genuine store key seen := by
  rcases play_advance_cases setup crowd index now with
    ⟨_, hscene, hcallers⟩ | ⟨caller, after, hcaller, hafter, hscene, hcallers⟩
  · constructor
    · exact hfound
    · rw [hscene]
      exact h.records
    · rw [hscene, hcallers]
      exact h.calls
  · have hcall := h.calls caller (List.mem_of_getElem? hcaller)
    constructor
    · exact hfound
    · rw [hscene]
      intro files hrecords
      rcases (Call.step_turn setup now caller.call crowd.scene).record_cases hrecords with
        hold | ⟨hkey, hnew⟩
      · exact h.records files hold
      · have hgenuine := hcall hkey.symm
        unfold Call.Genuine at hgenuine
        rcases hnew with ⟨persisted, hphase, hfiles⟩ | ⟨entry, hphase⟩
        · rw [hphase] at hgenuine
          rw [hfiles]
          exact hgenuine persisted rfl
        · rw [hphase] at hgenuine
          exact hgenuine.left
    · rw [hcallers]
      intro other hmem hkey
      obtain ⟨place, hplace⟩ := List.mem_iff_getElem?.mp hmem
      rcases getElem?_set_cases hplace with ⟨_, hsame⟩ | ⟨hne, hold⟩
      · have hcallerKey : caller.call.keyText = key := by
          rw [← hkey, hsame]
          unfold Caller.keyText
          rw [hafter, Call.keyText_step]
        rw [hsame, hafter, hscene]
        apply Call.step_genuine hstore hseen
        · exact hcall hcallerKey
        · rw [hcallerKey]
          exact h.records
        · rw [hcallerKey]
          exact h.found
      · have hgenuine := h.calls other (List.mem_of_getElem? hold) hkey
        by_cases hlooks : other.call.Looks
        · rw [hcalm place other hne hold hkey hlooks]
          exact hgenuine
        · exact hgenuine.of_not_looks hlooks _

theorem Genuine.deliver {index : Nat} {now : UInt64} {outcome : Except Error (Computed alpha)}
    (h : crowd.Genuine store key seen)
    (hreported : forall computed, outcome = .ok computed ->
      AllGenuine seen computed.dependencies) :
    (crowd.play setup (.deliver index now outcome)).Genuine store key seen := by
  rcases play_deliver_cases setup crowd index now outcome with
    ⟨hscene, hcallers⟩ |
      ⟨caller, after, ticket, primary, hcaller, hphase, hafter, hscene, hcallers⟩
  · constructor
    · rw [hscene]
      exact h.found
    · rw [hscene]
      exact h.records
    · rw [hscene, hcallers]
      exact h.calls
  · have hcall := h.calls caller (List.mem_of_getElem? hcaller)
    constructor
    · rw [hscene, Call.complete_disk]
      exact h.found
    · rw [hscene]
      intro files hrecords
      rcases Call.complete_record_cases hrecords with
        hold | ⟨hkey, other, file, computed, hcomputing, houtcome, hfiles⟩
      · exact h.records files hold
      · have hgenuine := hcall hkey.symm
        unfold Call.Genuine at hgenuine
        rw [hcomputing] at hgenuine
        rw [hfiles]
        exact allGenuine_trackedFiles hgenuine (hreported computed houtcome)
    · rw [hscene, hcallers, Call.complete_disk]
      intro other hother hkey
      rcases List.mem_or_eq_of_mem_set hother with hold | hnew
      · exact h.calls other hold hkey
      · have hcallerKey : caller.call.keyText = key := by
          rw [← hkey, hnew]
          unfold Caller.keyText
          rw [hafter, Call.keyText_complete]
        rw [hnew, hafter]
        exact Call.complete_genuine (hcall hcallerKey) hreported

theorem Genuine.outside {next : Crowd sigma alpha} (h : crowd.Genuine store key seen)
    (hcallers : next.callers = crowd.callers)
    (hfound : forall persisted,
      store.found key next.scene.disk = .ok (some persisted) ->
      AllGenuine seen persisted.tracked)
    (hrecords : forall files, next.scene.cache.records.find? key = some files ->
      crowd.scene.cache.records.find? key = some files)
    (hcalm : forall caller, caller ∈ crowd.callers -> caller.keyText = key ->
      caller.call.Looks -> Disk.files next.scene.disk = Disk.files crowd.scene.disk) :
    next.Genuine store key seen := by
  constructor
  · exact hfound
  · intro files hfiles
    exact h.records files (hrecords files hfiles)
  · rw [hcallers]
    intro caller hmem hkey
    by_cases hlooks : caller.call.Looks
    · rw [hcalm caller hmem hkey hlooks]
      exact h.calls caller hmem hkey
    · exact (h.calls caller hmem hkey).of_not_looks hlooks _

theorem Genuine.next (h : (crowd.after setup moves moment).Genuine store key seen)
    (hmirrored : (crowd.after setup moves moment).Mirrored store key)
    (hstore : setup.store = some store) (hcodec : json.codec.Faithful)
    (hretains : crowd.Retains setup moves json store key count)
    (hexact : crowd.Exact setup moves key count)
    (hsincere : crowd.Sincere setup moves store key count seen) (hlt : moment < count) :
    (crowd.after setup moves (moment + 1)).Genuine store key seen := by
  have hplay : crowd.after setup moves (moment + 1) =
      (crowd.after setup moves moment).play setup (moves moment) := rfl
  have hfound : forall persisted,
      store.found key (crowd.after setup moves (moment + 1)).scene.disk = .ok (some persisted) ->
      AllGenuine seen persisted.tracked :=
    fun persisted => genuine_foundAt h hmirrored hcodec hretains hexact hlt
  have hcalm : forall index caller,
      (crowd.after setup moves moment).callers[index]? = some caller -> caller.keyText = key ->
      caller.call.Looks -> (forall now, moves moment ≠ .advance index now) ->
      Disk.files ((crowd.after setup moves moment).play setup (moves moment)).scene.disk =
        Disk.files (crowd.after setup moves moment).scene.disk :=
    fun index caller => hsincere.calm moment index caller hlt
  have hcalm' : (forall index now, moves moment ≠ .advance index now) ->
      forall caller, caller ∈ (crowd.after setup moves moment).callers -> caller.keyText = key ->
      caller.call.Looks ->
      Disk.files ((crowd.after setup moves moment).play setup (moves moment)).scene.disk =
        Disk.files (crowd.after setup moves moment).scene.disk := by
    intro hother caller hmem hkey hlooks
    obtain ⟨index, hindex⟩ := List.mem_iff_getElem?.mp hmem
    exact hcalm index caller hindex hkey hlooks (hother index)
  rw [hplay] at hfound ⊢
  cases hmove : moves moment with
  | start other options =>
      rw [hmove] at hfound
      constructor
      · exact hfound
      · exact h.records
      · intro caller hmem hkey
        rcases List.mem_append.mp hmem with hold | hnew
        · exact h.calls caller hold hkey
        · rw [List.mem_singleton.mp hnew]
          exact trivial
  | advance index now =>
      rw [hmove] at hfound hcalm
      apply h.advance hstore (hsincere.watched moment (Nat.le_of_lt hlt)) hfound
      intro place caller hne hplace hkey hlooks
      apply hcalm place caller hplace hkey hlooks
      intro time hsame
      cases hsame
      exact hne rfl
  | deliver index now outcome =>
      apply h.deliver
      intro computed houtcome
      rw [houtcome] at hmove
      exact hsincere.reported moment index now computed hlt hmove
  | invalidate other =>
      rw [hmove] at hfound hcalm'
      refine h.outside ?_ hfound ?_ (hcalm' (by simp))
      · rfl
      · intro files hfiles
        have hcontents :=
          Call.invalidate_contents setup (crowd.after setup moves moment).scene other
        change (Scene.invalidate setup _ other).cache.records.find? key = some files at hfiles
        rw [hcontents.right] at hfiles
        exact Table.find?_of_erase hfiles
  | clear =>
      rw [hmove] at hfound hcalm'
      refine h.outside ?_ hfound ?_ (hcalm' (by simp))
      · rfl
      · intro files hfiles
        cases hfiles
  | disturb disk =>
      rw [hmove] at hfound hcalm'
      refine h.outside ?_ hfound ?_ (hcalm' (by simp))
      · rfl
      · intro files hfiles
        exact hfiles

end Next

/-- In a serial run that is sincere, all there is of the key is genuine at every moment. -/
theorem genuine_after {setup : CacheSetup sigma alpha} {moves : Nat -> Move sigma alpha}
    {json : JsonStore alpha} {store : Store sigma alpha} {key : String} {count : Nat}
    {seen : FileSystem -> Prop} {scene : Scene sigma alpha} (hstore : setup.store = some store)
    (hentry : scene.cache.entries.find? key = none)
    (hrecord : scene.cache.records.find? key = none) (hcodec : json.codec.Faithful)
    (hserial : (opened scene).Serial setup moves key count)
    (hretains : (opened scene).Retains setup moves json store key count)
    (hexact : (opened scene).Exact setup moves key count)
    (hsincere : (opened scene).Sincere setup moves store key count seen) {moment : Nat}
    (hle : moment ≤ count) : ((opened scene).after setup moves moment).Genuine store key seen := by
  induction moment with
  | zero =>
      constructor
      · exact hsincere.first
      · intro files hfiles
        change scene.cache.records.find? key = some files at hfiles
        rw [hrecord] at hfiles
        cases hfiles
      · intro caller hmem
        cases hmem
  | succ moment ih =>
      have hbefore := Nat.le_of_succ_le hle
      exact (ih hbefore).next
        (mirrored_after hstore hentry hcodec hserial hretains hexact hbefore) hstore hcodec
        hretains hexact hsincere hle

end Crowd
end LessonPress

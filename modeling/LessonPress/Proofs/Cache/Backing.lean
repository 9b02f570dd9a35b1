import LessonPress.Proofs.Cache.Provenance
import LessonPress.Proofs.Cache.Vouching

/-!
# Runs behind a cache

## What a cache and its calls hold goes back to the run

Whatever the moves, every entry in memory was stored by an earlier move, and the key's
own file in every list of tracked files is vouched for.
-/

namespace LessonPress
namespace Caller

variable {sigma alpha : Type}

def limit (caller : Caller alpha) (moment : Nat) : Nat :=
  caller.finish.getD moment

structure Backed (files : Nat -> FileSystem) (path : FilePath)
    (stored : Nat -> CacheEntry alpha -> Prop) (moment : Nat) (caller : Caller alpha) : Prop where
  keyed : caller.call.key.path = path
  started : caller.start ≤ caller.limit moment
  ended : caller.limit moment ≤ moment
  phase : caller.call.phase.Backed files path stored caller.start moment
  yield : forall yield, caller.yield = some yield ->
    yield.Backed files path stored caller.start (caller.limit moment)

variable {files : Nat -> FileSystem} {path : FilePath}
  {stored : Nat -> CacheEntry alpha -> Prop} {moment count : Nat} {caller : Caller alpha}

theorem limit_le_succ (caller : Caller alpha) (moment : Nat) :
    caller.limit moment ≤ caller.limit (moment + 1) := by
  unfold limit
  cases caller.finish with
  | none => exact Nat.le_succ _
  | some ended => exact Nat.le_refl _

theorem limit_succ_le {caller : Caller alpha} (h : caller.limit moment ≤ moment) :
    caller.limit (moment + 1) ≤ moment + 1 := by
  unfold limit at h ⊢
  cases hfinish : caller.finish with
  | none => exact Nat.le_refl _
  | some ended =>
      rw [hfinish] at h
      exact Nat.le_succ_of_le h

theorem Backed.wait (h : caller.Backed files path stored moment) :
    caller.Backed files path stored (moment + 1) where
  keyed := h.keyed
  started := Nat.le_trans h.started (caller.limit_le_succ moment)
  ended := limit_succ_le h.ended
  phase := h.phase.mono (Nat.le_succ _)
  yield := fun yield hyield => (h.yield yield hyield).mono (caller.limit_le_succ moment)

theorem Backed.note (h : caller.Backed files path stored moment) {scene : Scene sigma alpha}
    {found : Option (CacheEntry alpha × UInt64)} {yield : Option (Yield alpha)}
    {next : Call alpha × Scene sigma alpha} (hcall : caller.call.SameCall next.1)
    (hphase : next.1.phase.Backed files path stored caller.start (moment + 1))
    (hyield : forall own, yield = some own ->
      caller.finish = none ∧ own.Backed files path stored caller.start moment) :
    (caller.note moment scene found yield next).Backed files path stored (moment + 1) := by
  have hlimit : caller.limit moment ≤ (caller.note moment scene found yield next).limit
      (moment + 1) := by
    have hended := h.ended
    unfold limit at hended ⊢
    change _ ≤ (caller.finish.or (next.1.result?.map fun _ => moment)).getD (moment + 1)
    cases hfinish : caller.finish with
    | some ended => exact Nat.le_refl _
    | none =>
        cases next.1.result? with
        | none => exact Nat.le_succ _
        | some result => exact Nat.le_refl _
  refine ⟨?keyed, Nat.le_trans h.started hlimit, ?ended, hphase, ?yield⟩
  case keyed =>
    change next.1.key.path = path
    rw [hcall.left]
    exact h.keyed
  case ended =>
    have hended := h.ended
    unfold limit at hended ⊢
    change (caller.finish.or (next.1.result?.map fun _ => moment)).getD (moment + 1) ≤ _
    cases hfinish : caller.finish with
    | some ended =>
        rw [hfinish] at hended
        exact Nat.le_succ_of_le hended
    | none =>
        cases next.1.result? with
        | none => exact Nat.le_refl _
        | some result => exact Nat.le_succ _
  case yield =>
    intro own hown
    change yield.or caller.yield = some own at hown
    rw [Option.or_eq_some_iff] at hown
    rcases hown with hnow | ⟨_, hold⟩
    · rcases hyield own hnow with ⟨hfinish, hbacked⟩
      refine hbacked.mono (Nat.le_trans ?_ hlimit)
      unfold limit
      rw [hfinish]
      exact Nat.le_refl _
    · exact (h.yield own hold).mono hlimit

theorem Fits.finish_of_searching {cache : Cache alpha} (h : caller.Fits cache)
    (hstage : caller.stage.result? = none) : caller.finish = none := by
  have hfinished := h.finished
  rw [hstage] at hfinished
  exact Option.not_isSome_iff_eq_none.mp (by simp [hfinished])

theorem Backed.advance [Disk sigma] {setup : CacheSetup sigma alpha} {now : UInt64}
    {scene : Scene sigma alpha} (h : caller.Backed files path stored moment)
    (hfits : caller.Fits scene.cache) (hfiles : files moment = Disk.files scene.disk)
    (htold : ToldApart files path count) (hcount : moment ≤ count)
    (hcache : scene.cache.Backed files path stored moment caller.keyText)
    (hloaded : forall store persisted, caller.call.phase = .loading ->
      setup.store = some store ->
      (store.load caller.keyText scene.disk).1 = .ok (some persisted) ->
      Made stored moment persisted.entry ∧ Headed files path moment persisted.tracked) :
    (caller.advance setup now moment scene).1.Backed files path stored (moment + 1) := by
  have hphase : (caller.call.step setup now scene).1.phase.Backed files path stored caller.start
      moment :=
    Call.step_backed hfiles h.keyed (Nat.le_trans h.started h.ended) htold hcount hcache
      hloaded h.phase
  apply h.note (Call.sameCall_step ..) (hphase.mono (Nat.le_succ _))
  intro own hown
  refine ⟨?_, Call.yield?_backed hcache h.phase hown⟩
  obtain ⟨_, stale, hstage⟩ := Call.yield?_flown hown
  apply hfits.finish_of_searching
  unfold stage
  rw [hstage]
  rfl

theorem Backed.deliver {now : UInt64} {scene : Scene sigma alpha}
    {outcome : Except Error (Computed alpha)} (h : caller.Backed files path stored moment)
    (hfits : caller.Fits scene.cache)
    (hstored : forall ticket primary computed, caller.call.phase = .computing ticket primary ->
      outcome = .ok computed ->
      stored moment (caller.call.keep now scene.cache primary computed).1.entry) :
    (caller.deliver now moment outcome scene).1.Backed files path stored (moment + 1) := by
  unfold Caller.deliver
  split
  · rename_i ticket primary hphase
    apply h.note (Call.sameCall_complete ..) (Call.complete_backed hstored h.phase)
    intro own hown
    cases hown
    refine ⟨hfits.finish_of_searching ?_, trivial⟩
    unfold stage
    rw [hphase]
    rfl
  · exact h.wait

end Caller

namespace Crowd

variable {sigma alpha : Type} [Disk sigma]

theorem after_moment (setup : CacheSetup sigma alpha) (moves : Nat -> Move sigma alpha)
    (crowd : Crowd sigma alpha) (count : Nat) :
    (crowd.after setup moves count).moment = crowd.moment + count := by
  induction count with
  | zero => rfl
  | succ count ih =>
      unfold after
      rw [play_moment, ih]
      rfl

section Run

variable (setup : CacheSetup sigma alpha) (moves : Nat -> Move sigma alpha)
  (crowd : Crowd sigma alpha)

def filesAt (moment : Nat) : FileSystem :=
  Disk.files (crowd.after setup moves moment).scene.disk

/-- A move of the run tells a call of the key what it has computed, and the entry is kept. -/
def StoredAt (key : String) (moment : Nat) (entry : CacheEntry alpha) : Prop :=
  exists index now computed caller ticket primary,
    moves moment = .deliver index now (.ok computed) ∧
      (crowd.after setup moves moment).callers[index]? = some caller ∧
      caller.keyText = key ∧ caller.call.phase = .computing ticket primary ∧
      entry =
        (caller.call.keep now (crowd.after setup moves moment).scene.cache primary
          computed).1.entry

/-- A run as the cache expects it, for the calls of one key.  The calls name one file;
what they compute is a function of bytes that the file holds at some moment before; the
cache can tell every change of the file by its fingerprint and different contents by
their hashes; and what the store gives is something that was saved in it. -/
structure Honest (key : String) (path : FilePath) (count : Nat) (f : ByteArray -> alpha)
    (readAt : Nat -> Nat) (bytes : Nat -> ByteArray) : Prop where
  keyed : forall moment other options, moment < count -> moves moment = .start other options ->
    other.text = key -> other.path = path
  read : forall moment entry, moment < count -> crowd.StoredAt setup moves key moment entry ->
    readAt moment ≤ moment ∧
      (crowd.filesAt setup moves (readAt moment)).read path = .ok (bytes moment) ∧
      entry.value = f (bytes moment)
  told : ToldApart (crowd.filesAt setup moves) path count
  hashed : forall moment other content bytes, moment ≤ count -> other ≤ count ->
    (crowd.filesAt setup moves moment).read path = .ok content ->
    (crowd.filesAt setup moves other).read path = .ok bytes ->
    ContentHash.of content = ContentHash.of bytes -> content = bytes
  loaded : forall moment caller store persisted, moment < count ->
    caller ∈ (crowd.after setup moves moment).callers -> caller.keyText = key ->
    caller.call.phase = .loading -> setup.store = some store ->
    (store.load key (crowd.after setup moves moment).scene.disk).1 = .ok (some persisted) ->
    exists earlier saver ticket, earlier ≤ moment ∧
      saver ∈ (crowd.after setup moves earlier).callers ∧ saver.keyText = key ∧
      saver.call.phase = .saving ticket persisted

structure BackedAt (key : String) (path : FilePath) (moment : Nat) : Prop where
  cache : (crowd.after setup moves moment).scene.cache.Backed (crowd.filesAt setup moves) path
    (crowd.StoredAt setup moves key) moment key
  calls : forall caller, caller ∈ (crowd.after setup moves moment).callers ->
    caller.keyText = key ->
    caller.Backed (crowd.filesAt setup moves) path (crowd.StoredAt setup moves key) moment

end Run

section Backing

variable {setup : CacheSetup sigma alpha} {moves : Nat -> Move sigma alpha}
  {crowd : Crowd sigma alpha} {key : String} {path : FilePath} {moment : Nat}

theorem BackedAt.outside (h : crowd.BackedAt setup moves key path moment)
    (hcallers : (crowd.after setup moves (moment + 1)).callers =
      (crowd.after setup moves moment).callers)
    (hentries : forall entry,
      (crowd.after setup moves (moment + 1)).scene.cache.entries.find? key = some entry ->
      (crowd.after setup moves moment).scene.cache.entries.find? key = some entry)
    (hrecords : forall tracked,
      (crowd.after setup moves (moment + 1)).scene.cache.records.find? key = some tracked ->
      (crowd.after setup moves moment).scene.cache.records.find? key = some tracked) :
    crowd.BackedAt setup moves key path (moment + 1) where
  cache :=
    { entry := fun entry hentry =>
        (h.cache.entry entry (hentries entry hentry)).mono (Nat.le_succ _)
      record := fun tracked htracked =>
        (h.cache.record tracked (hrecords tracked htracked)).mono (Nat.le_succ _) }
  calls := by
    intro caller hmem hkey
    rw [hcallers] at hmem
    exact (h.calls caller hmem hkey).wait

theorem BackedAt.act (h : crowd.BackedAt setup moves key path moment) {index : Nat}
    {caller next : Caller alpha}
    (hcallers : (crowd.after setup moves (moment + 1)).callers =
      (crowd.after setup moves moment).callers.set index next)
    (hkey : next.keyText = caller.keyText)
    (hcache : (crowd.after setup moves (moment + 1)).scene.cache.Backed
      (crowd.filesAt setup moves) path (crowd.StoredAt setup moves key) (moment + 1) key)
    (hnext : caller.keyText = key -> next.Backed (crowd.filesAt setup moves) path
      (crowd.StoredAt setup moves key) (moment + 1)) :
    crowd.BackedAt setup moves key path (moment + 1) where
  cache := hcache
  calls := by
    intro other hmem hother
    rw [hcallers] at hmem
    cases List.mem_or_eq_of_mem_set hmem with
    | inl hold => exact (h.calls other hold hother).wait
    | inr heq =>
        subst heq
        exact hnext (hkey.symm.trans hother)

variable {count : Nat} {f : ByteArray -> alpha} {readAt : Nat -> Nat} {bytes : Nat -> ByteArray}

theorem BackedAt.advance (h : crowd.BackedAt setup moves key path moment)
    (horderly : (crowd.after setup moves moment).Orderly)
    (hmoment : (crowd.after setup moves moment).moment = moment)
    (hhonest : crowd.Honest setup moves key path count f readAt bytes) (hlt : moment < count)
    (hearlier : forall earlier, earlier ≤ moment -> crowd.BackedAt setup moves key path earlier)
    {index : Nat} {now : UInt64} (hmove : moves moment = .advance index now) :
    crowd.BackedAt setup moves key path (moment + 1) := by
  have hnext : crowd.after setup moves (moment + 1) =
      (crowd.after setup moves moment).actAt index (Caller.advance setup now moment) := by
    change (crowd.after setup moves moment).play setup (moves moment) = _
    rw [hmove]
    unfold play
    rw [hmoment]
  rcases actAt_eq (crowd.after setup moves moment) index (Caller.advance setup now moment) with
    ⟨_, hscene, hcallers⟩ | ⟨caller, hcaller, hscene, hcallers⟩
  · rw [← hnext] at hscene hcallers
    refine h.outside hcallers ?_ ?_
    · intro entry hentry
      rw [← hscene]
      exact hentry
    · intro tracked htracked
      rw [← hscene]
      exact htracked
  · rw [← hnext] at hscene hcallers
    have hmem := List.mem_of_getElem? hcaller
    have hkeyText :
        (caller.advance setup now moment (crowd.after setup moves moment).scene).1.keyText =
          caller.keyText := (Caller.acts_advance setup now moment _ caller).keyText
    refine h.act hcallers hkeyText ?_ ?_
    · rw [hscene]
      exact (Call.step_cache_backed h.cache fun hkey => (h.calls caller hmem hkey).phase).mono
        (Nat.le_succ _)
    · intro hkey
      refine (h.calls caller hmem hkey).advance (horderly.fits index caller hcaller) rfl
        hhonest.told (Nat.le_of_lt hlt) (hkey ▸ h.cache) ?_
      -- what is loaded now was being saved at an earlier moment
      intro store persisted hphase hstore hload
      rw [hkey] at hload
      rcases hhonest.loaded moment caller store persisted hlt hmem hkey hphase hstore hload with
        ⟨earlier, saver, ticket, hle, hsaver, hsaverKey, hsaving⟩
      have hbacked := ((hearlier earlier hle).calls saver hsaver hsaverKey).phase
      rw [hsaving] at hbacked
      exact ⟨hbacked.left.mono hle, hbacked.right.mono hle⟩

theorem BackedAt.deliver (h : crowd.BackedAt setup moves key path moment)
    (horderly : (crowd.after setup moves moment).Orderly)
    (hmoment : (crowd.after setup moves moment).moment = moment)
    {index : Nat} {now : UInt64} {outcome : Except Error (Computed alpha)}
    (hmove : moves moment = .deliver index now outcome) :
    crowd.BackedAt setup moves key path (moment + 1) := by
  have hnext : crowd.after setup moves (moment + 1) =
      (crowd.after setup moves moment).actAt index (Caller.deliver now moment outcome) := by
    change (crowd.after setup moves moment).play setup (moves moment) = _
    rw [hmove]
    unfold play
    rw [hmoment]
  rcases actAt_eq (crowd.after setup moves moment) index (Caller.deliver now moment outcome) with
    ⟨_, hscene, hcallers⟩ | ⟨caller, hcaller, hscene, hcallers⟩
  · rw [← hnext] at hscene hcallers
    refine h.outside hcallers ?_ ?_
    · intro entry hentry
      rw [← hscene]
      exact hentry
    · intro tracked htracked
      rw [← hscene]
      exact htracked
  · rw [← hnext] at hscene hcallers
    have hmem := List.mem_of_getElem? hcaller
    have hstored : caller.call.keyText = key -> forall ticket primary computed,
        caller.call.phase = .computing ticket primary -> outcome = .ok computed ->
        crowd.StoredAt setup moves key moment
          (caller.call.keep now (crowd.after setup moves moment).scene.cache primary
            computed).1.entry := by
      intro hkey ticket primary computed hphase houtcome
      subst houtcome
      exact ⟨index, now, computed, caller, ticket, primary, hmove, hcaller, hkey, hphase, rfl⟩
    have hkeyText : (caller.deliver now moment outcome
        (crowd.after setup moves moment).scene).1.keyText = caller.keyText := by
      rcases Caller.acts_deliver now moment outcome (crowd.after setup moves moment).scene caller
        with hidle | hacts
      · rw [hidle]
      · exact hacts.keyText
    refine h.act hcallers hkeyText ?_ ?_
    · rw [hscene]
      unfold Caller.deliver
      split
      · exact Call.complete_cache_backed h.cache hstored
          fun hkey => (h.calls caller hmem hkey).phase
      · exact h.cache.mono (Nat.le_succ _)
    · intro hkey
      exact (h.calls caller hmem hkey).deliver (horderly.fits index caller hcaller) (hstored hkey)

theorem BackedAt.next (h : crowd.BackedAt setup moves key path moment)
    (horderly : (crowd.after setup moves moment).Orderly)
    (hmoment : (crowd.after setup moves moment).moment = moment)
    (hhonest : crowd.Honest setup moves key path count f readAt bytes) (hlt : moment < count)
    (hearlier : forall earlier, earlier ≤ moment ->
      crowd.BackedAt setup moves key path earlier) :
    crowd.BackedAt setup moves key path (moment + 1) := by
  have hplay : crowd.after setup moves (moment + 1) =
      (crowd.after setup moves moment).play setup (moves moment) := rfl
  cases hmove : moves moment with
  | start other options =>
      rw [hmove] at hplay
      constructor
      · rw [hplay]
        exact h.cache.mono (Nat.le_succ _)
      · intro caller hmem hkey
        rw [hplay] at hmem
        cases List.mem_append.mp hmem with
        | inl hold => exact (h.calls caller hold hkey).wait
        | inr hnew =>
            rw [List.mem_singleton.mp hnew] at hkey ⊢
            refine ⟨hhonest.keyed moment other options hlt hmove hkey, ?_, Nat.le_refl _,
              trivial, ?_⟩
            · rw [hmoment]
              exact Nat.le_succ _
            · intro yield hyield
              cases hyield
  | advance index now => exact h.advance horderly hmoment hhonest hlt hearlier hmove
  | deliver index now outcome => exact h.deliver horderly hmoment hmove
  | invalidate other =>
      rw [hmove] at hplay
      have hcontents := Call.invalidate_contents setup (crowd.after setup moves moment).scene other
      refine h.outside (by rw [hplay]; rfl) ?_ ?_
      · intro entry hentry
        rw [hplay] at hentry
        change (Scene.invalidate setup _ other).cache.entries.find? key = some entry at hentry
        rw [hcontents.left] at hentry
        exact Table.find?_of_erase hentry
      · intro tracked htracked
        rw [hplay] at htracked
        change (Scene.invalidate setup _ other).cache.records.find? key = some tracked at htracked
        rw [hcontents.right] at htracked
        exact Table.find?_of_erase htracked
  | clear =>
      rw [hmove] at hplay
      refine h.outside (by rw [hplay]; rfl) ?_ ?_
      · intro entry hentry
        rw [hplay] at hentry
        cases hentry
      · intro tracked htracked
        rw [hplay] at htracked
        cases htracked
  | disturb disk =>
      rw [hmove] at hplay
      refine h.outside (by rw [hplay]; rfl) ?_ ?_
      · intro entry hentry
        rw [hplay] at hentry
        exact hentry
      · intro tracked htracked
        rw [hplay] at htracked
        exact htracked

/-- Whatever the moves of an honest run, what the cache and the calls hold of a key that
the cache does not hold at first goes back to the run. -/
theorem backed_after {scene : Scene sigma alpha} (hidle : scene.cache.Idle)
    (hentry : scene.cache.entries.find? key = none)
    (hrecord : scene.cache.records.find? key = none)
    (hhonest : (opened scene).Honest setup moves key path count f readAt bytes)
    (hle : moment ≤ count) : (opened scene).BackedAt setup moves key path moment := by
  have hall : forall earlier, earlier ≤ moment ->
      (opened scene).BackedAt setup moves key path earlier := by
    induction moment with
    | zero =>
        intro earlier hearlier
        rw [Nat.le_zero.mp hearlier]
        refine ⟨⟨?_, ?_⟩, ?_⟩
        · intro entry hfound
          change scene.cache.entries.find? key = some entry at hfound
          rw [hentry] at hfound
          cases hfound
        · intro tracked hfound
          change scene.cache.records.find? key = some tracked at hfound
          rw [hrecord] at hfound
          cases hfound
        · intro caller hmem
          cases hmem
    | succ moment ih =>
        intro earlier hearlier
        have hbefore := ih (Nat.le_of_succ_le hle)
        rcases Nat.le_succ_iff.mp hearlier with hold | hnow
        · exact hbefore earlier hold
        · rw [hnow]
          have hmoment : ((opened scene).after setup moves moment).moment = moment := by
            rw [after_moment]
            exact Nat.zero_add moment
          exact (hbefore moment (Nat.le_refl _)).next
            ((orderly_opened hidle).after setup moves moment) hmoment hhonest hle hbefore
  exact hall moment (Nat.le_refl _)

end Backing
/-!
# Runs without a store

Only what happens outside changes the disk, and nothing is ever loaded.
-/

section Storeless

variable {setup : CacheSetup sigma alpha} (hstore : setup.store = none)

include hstore

theorem step_disk (now : UInt64) (call : Call alpha) (scene : Scene sigma alpha) :
    (call.step setup now scene).2.disk = scene.disk := by
  rw [Call.step_disk_eq, hstore]

theorem play_disk (crowd : Crowd sigma alpha) (move : Move sigma alpha) :
    (crowd.play setup move).scene.disk =
      match move with
      | .disturb disk => disk
      | _ => crowd.scene.disk := by
  cases move with
  | start key options => rfl
  | advance index now =>
      cases hcaller : crowd.callers[index]? with
      | none => exact disk_advance_of_none crowd now hcaller
      | some caller => rw [disk_advance crowd now hcaller, step_disk hstore]
  | deliver index now outcome => exact disk_deliver ..
  | invalidate key =>
      dsimp only [play, Scene.invalidate, Scene.removeStored]
      rw [hstore]
      rfl
  | clear => rfl
  | disturb disk => rfl

theorem after_disk (moves : List (Move sigma alpha)) (crowd : Crowd sigma alpha) (count : Nat) :
    (crowd.after setup (script moves) count).scene.disk =
      (moves.take count).foldl
        (fun disk move => match move with
          | .disturb other => other
          | _ => disk)
        crowd.scene.disk := by
  induction count with
  | zero => rfl
  | succ count ih =>
      unfold after
      rw [play_disk hstore, ih, List.take_add_one, List.foldl_append]
      unfold script
      rw [List.getD_eq_getElem?_getD]
      cases moves[count]? with
      | none => rfl
      | some move => rfl

end Storeless
end Crowd
end LessonPress

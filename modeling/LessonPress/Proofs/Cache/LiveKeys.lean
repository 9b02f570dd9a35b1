import LessonPress.Cache.Run
import LessonPress.Proofs.Cache.Past
import Mathlib.Tactic.IntervalCases

/-!
# Live keys

## Which keys of a file are left in memory and in the store

A strict key changes with the content of its file.  When a cache stores a value under a
new key of a file, it drops the key that it has stored for this file before.  A key that it
has only restored is not known as a key of the file, and stays.
-/

namespace LessonPress
namespace Crowd

variable {sigma alpha : Type} [Disk sigma]

section Run

variable (setup : CacheSetup sigma alpha) (moves : Nat -> Move sigma alpha)
  (store : Store sigma alpha) (crowd : Crowd sigma alpha)

def LastStored (moment source : Nat) (call : Call alpha) : Prop :=
  call.Computes ∧ exists entry recorded,
    crowd.LastEntered setup moves moment source call entry recorded

def LastRestored (moment source : Nat) (call : Call alpha) (persisted : PersistedEntry alpha) :
    Prop :=
  call.Restores persisted ∧ exists entry recorded,
    crowd.LastEntered setup moves moment source call entry recorded

/-- Which keys of a file are left.  Every key in memory was stored or restored.  A key that
was stored is gone from memory and store once another key of the file has been stored, so
that at most one stored key of a file is in memory.  A restored key that was not invalidated
is left in both.  So nothing but the latest key is left of a file exactly if all the others
that were restored, and not stored since, have been invalidated. -/
structure OneLiveAt (moment : Nat) : Prop where
  present : forall key entry,
    (crowd.after setup moves moment).scene.cache.entries.find? key = some entry ->
    exists source call, call.keyText = key ∧
      (crowd.LastStored setup moves moment source call ∨
        exists persisted, crowd.LastRestored setup moves moment source call persisted)
  replaced : forall source call later other,
    crowd.LastStored setup moves moment source call -> source < later -> later < moment ->
    crowd.KeepsAt setup moves later other -> other.components = call.components ->
    crowd.GoneAt setup moves store moment call.keyText
  unique : forall source call later other, crowd.LastStored setup moves moment source call ->
    crowd.LastStored setup moves moment later other -> other.components = call.components ->
    (crowd.after setup moves moment).scene.cache.entries.find? call.keyText ≠ none ->
    (crowd.after setup moves moment).scene.cache.entries.find? other.keyText ≠ none ->
    other.keyText = call.keyText
  lingering : forall source call persisted,
    crowd.LastRestored setup moves moment source call persisted ->
    ¬ DroppedSince moves source moment call.keyText ->
    (crowd.after setup moves moment).scene.cache.entries.find? call.keyText =
        some persisted.entry ∧
      crowd.foundAt setup moves store call.keyText moment = .ok (some persisted)
  exact : forall file key, crowd.LatestAt setup moves moment file key ->
    ((forall source call, (crowd.LastStored setup moves moment source call ∨
          exists persisted, crowd.LastRestored setup moves moment source call persisted) ->
        call.components = file -> call.keyText ≠ key ->
        crowd.GoneAt setup moves store moment call.keyText) <->
      forall source call persisted,
        crowd.LastRestored setup moves moment source call persisted ->
        call.components = file -> call.keyText ≠ key ->
        DroppedSince moves source moment call.keyText)

end Run

/-!
# Runs
-/

section Runs

variable {setup : CacheSetup sigma alpha} {moves : Nat -> Move sigma alpha}
  {store : Store sigma alpha} {crowd : Crowd sigma alpha}
  {moment count : Nat}

theorem Tidy.next
    (h : (crowd.after setup moves moment).Tidy store (crowd.pastAt setup moves moment))
    (hstore : setup.store = some store)
    (hmove : (crowd.after setup moves moment).Uninterrupted Phase.isActing (moves moment))
    (hclear : moves moment ≠ .clear)
    (hready : forall caller, caller ∈ (crowd.after setup moves moment).callers ->
      caller.call.Ready store (crowd.after setup moves moment).scene.disk)
    (hheeds : forall key, (crowd.after setup moves moment).Heeds store key
      (crowd.after setup moves (moment + 1)) (moves moment)) :
    (crowd.after setup moves (moment + 1)).Tidy store
      (crowd.pastAt setup moves (moment + 1)) := by
  by_cases hinvalidate : exists key, moves moment = .invalidate key
  · rcases hinvalidate with ⟨key, hkey⟩
    have hnext : crowd.after setup moves (moment + 1) =
        (crowd.after setup moves moment).play setup (.invalidate key) := by
      change (crowd.after setup moves moment).play setup (moves moment) = _
      rw [hkey]
    rw [hkey] at hmove hheeds
    have hcontents :=
      Call.invalidate_contents setup (crowd.after setup moves moment).scene key
    have hfree := free_of_not_acting hmove
    have hkeys : (crowd.after setup moves (moment + 1)).scene.cache.currentKeys =
        ((crowd.after setup moves moment).scene.cache.retire key).currentKeys := by
      rw [hnext]
      change (Scene.invalidate setup _ key).cache.currentKeys = _
      unfold Scene.invalidate Scene.removeStored
      rw [Call.emitFailure_cache]
      cases setup.store <;> rfl
    unfold Cache.retire at hkeys
    rw [pastAt_drop hkey]
    refine h.invalidated ?_ ?_ ?_ ?_ ?_ hfree ?_
    · rw [hnext]
      exact hcontents.left
    · intro file other hother
      rw [hkeys] at hother
      split at hother
      · exact Table.find?_of_erase hother
      · exact hother
    · intro file other hne hother
      rw [hkeys]
      split
      · rename_i hcurrent
        have hfile : file ≠ key.path.components := by
          intro hfile
          rw [hfile, hcurrent] at hother
          exact hne (Option.some.inj hother).symm
        exact (Table.find?_erase_of_ne _ hfile).trans hother
      · exact hother
    · exact (hheeds key.text).removed (Or.inr ⟨key, rfl, rfl⟩)
    · intro other hother
      apply (hheeds other).kept
      · rintro persisted ⟨index, now, caller, hadvance, _⟩
        cases hadvance
      · rintro (⟨index, now, caller, hadvance, _⟩ | ⟨own, hown, htext⟩)
        · cases hadvance
        · cases hown
          exact hother htext.symm
    · rw [hnext]
      exact hfree
  · have hother : forall key, moves moment ≠ .invalidate key :=
      fun key hkey => hinvalidate ⟨key, hkey⟩
    have hdeed : (crowd.after setup moves moment).Deed store
        (crowd.after setup moves (moment + 1)) (moves moment) :=
      play_deed hstore hmove hready hheeds hother hclear
    cases hdeed with
    | quiet hentries hkeys hfound hspares hhas =>
        rw [pastAt_quiet hother hspares]
        exact h.quiet hentries hkeys hfound hhas
    | restored henters hphase hentry hloaded hentries hkeys hfound hbefore hhas =>
        rw [pastAt_enter hother henters hphase]
        exact h.restored_entry hphase hentry hloaded hentries hkeys hfound hbefore hhas
    | kept henters hphase hentries hkeys hfound hbefore hhas =>
        rw [pastAt_keep hother henters ⟨_, _, hphase⟩]
        exact h.kept_entry ⟨_, _, hphase⟩ hentries hkeys hfound hbefore hhas
    | saved key hentries hkeys hfound hspares hbefore hhas =>
        rw [pastAt_quiet hother hspares]
        exact h.saved hentries hkeys hfound hbefore hhas
    | adopted key hprevious hentries hkeys hfound hspares hbefore hhas =>
        rw [pastAt_quiet hother hspares]
        exact h.adopted hprevious hentries hkeys hfound hbefore hhas
    | replaced key previous hprevious hne hentries hkeys hfound hspares hbefore hhas =>
        rw [pastAt_quiet hother hspares]
        exact h.replaced hprevious hne hentries hkeys hfound hbefore hhas
    | discarded previous hentries hkeys hremoved hfound hspares hbefore hhas =>
        rw [pastAt_quiet hother hspares]
        exact h.discarded hentries hkeys hremoved hfound hbefore hhas

variable {scene : Scene sigma alpha}

theorem tidy_after (hcache : scene.cache = .empty) (hstore : setup.store = some store)
    (hmoves : forall moment, moment < count ->
      ((opened scene).after setup moves moment).Uninterrupted Phase.isActing (moves moment))
    (hclear : forall moment, moment < count -> moves moment ≠ .clear)
    (hheeds : forall moment key, moment < count ->
      ((opened scene).after setup moves moment).Heeds store key
        ((opened scene).after setup moves (moment + 1)) (moves moment))
    (hle : moment ≤ count) :
    ((opened scene).after setup moves moment).Tidy store
        ((opened scene).pastAt setup moves moment) ∧
      forall caller, caller ∈ ((opened scene).after setup moves moment).callers ->
        caller.call.Ready store ((opened scene).after setup moves moment).scene.disk := by
  induction moment with
  | zero =>
      have hcurrent : forall file, scene.cache.currentKeys.find? file = none := by
        intro file
        rw [hcache]
        rfl
      constructor
      · constructor
        case held =>
          rintro key ⟨source, call, hlt, _⟩
          cases hlt
        case current =>
          rintro call ⟨source, entry, recorded, hlast⟩
          cases hlast.earlier
        case latest =>
          intro file key hkey
          change scene.cache.currentKeys.find? file = some key at hkey
          rw [hcurrent] at hkey
          cases hkey
        case known =>
          intro file key hkey
          change scene.cache.currentKeys.find? file = some key at hkey
          rw [hcurrent] at hkey
          cases hkey
        case adopting =>
          rintro key ⟨caller, hmem, _⟩
          cases hmem
        case discarding =>
          rintro key ⟨caller, hmem, _⟩
          cases hmem
        case restored =>
          rintro call persisted ⟨source, entry, recorded, hlast⟩
          cases hlast.earlier
      · intro caller hmem
        cases hmem
  | succ moment ih =>
      have hbefore := ih (Nat.le_of_succ_le hle)
      have hnow := fun key => hheeds moment key hle
      constructor
      · exact hbefore.left.next hstore (hmoves moment hle) (hclear moment hle) hbefore.right hnow
      · intro caller hmem
        exact play_ready hstore (hmoves moment hle) hbefore.right hnow hmem

theorem LastEntered.source_unique {source other : Nat} {call next : Call alpha}
    {entry found : CacheEntry alpha} {recorded listed : Option (List TrackedFile)}
    (h : crowd.LastEntered setup moves moment source call entry recorded)
    (hother : crowd.LastEntered setup moves moment other next found listed)
    (hkey : next.keyText = call.keyText) : other = source := by
  apply Nat.le_antisymm
  · apply Nat.le_of_not_lt
    intro hlt
    exact h.spared other hlt hother.earlier next found listed hother.enters hkey
  · apply Nat.le_of_not_lt
    intro hlt
    exact hother.spared source hlt h.earlier call entry recorded h.enters hkey.symm

/-- A stored key after which another key of its file was stored is gone. -/
theorem Tidy.replaced_gone
    (h : (crowd.after setup moves moment).Tidy store (crowd.pastAt setup moves moment))
    (hfree : (crowd.after setup moves moment).Free) {source later : Nat} {call other : Call alpha}
    (hstored : crowd.LastStored setup moves moment source call) (hlater : source < later)
    (hlt : later < moment) (hkeeps : crowd.KeepsAt setup moves later other)
    (hfile : other.components = call.components) :
    crowd.GoneAt setup moves store moment call.keyText := by
  rcases hstored with ⟨hcomputes, entry, recorded, hlast⟩
  have hspared : forall next, source < next -> next < moment ->
      forall kept, crowd.KeepsAt setup moves next kept -> kept.keyText ≠ call.keyText := by
    rintro next hnext hbound kept ⟨_, keptEntry, keptFiles, henters⟩
    exact hlast.spared next hnext hbound kept keptEntry keptFiles henters
  have hnone : (crowd.after setup moves moment).scene.cache.entries.find? call.keyText = none := by
    rcases h.current call ⟨source, entry, recorded, hlast⟩ hcomputes with hcurrent | hnone | htask
    · -- the latest key of the file cannot be the one before it
      rcases h.latest _ _ hcurrent with
        ⟨latest, kept, hbound, hkept, hsame, hkey, hlatest⟩ | ⟨own, _, htask⟩
      · by_cases horder : latest < later
        · exact absurd hfile (hlatest later other horder hlt hkeeps)
        · exact absurd hkey
            (hspared latest (Nat.lt_of_lt_of_le hlater (Nat.le_of_not_lt horder)) hbound kept
              hkept)
      · exact absurd htask (hfree _)
    · exact hnone
    · exact absurd htask (hfree _)
  have hkept : crowd.KeptBefore setup moves moment call.keyText :=
    ⟨source, call, hlast.earlier, ⟨hcomputes, entry, recorded, hlast.enters⟩, rfl⟩
  rcases h.held _ hkept with hheld | hgone | ⟨own, _, htask⟩ | htask
  · exact absurd hnone hheld
  · exact ⟨hnone, hgone⟩
  · exact absurd htask (hfree _)
  · exact absurd htask (hfree _)

/-- An entry that was restored stays in memory and in the store until its key is
invalidated. -/
theorem Tidy.restored_stays
    (h : (crowd.after setup moves moment).Tidy store (crowd.pastAt setup moves moment))
    {source : Nat} {call : Call alpha} {persisted : PersistedEntry alpha}
    (hrestored : crowd.LastRestored setup moves moment source call persisted) :
    (¬ DroppedSince moves source moment call.keyText ∧
        (crowd.after setup moves moment).scene.cache.entries.find? call.keyText =
          some persisted.entry ∧
        crowd.foundAt setup moves store call.keyText moment = .ok (some persisted)) ∨
      (DroppedSince moves source moment call.keyText ∧
        crowd.GoneAt setup moves store moment call.keyText) := by
  rcases hrestored with ⟨hrestores, entry, recorded, hlast⟩
  have hstays := (h.restored call persisted ⟨source, entry, recorded, hlast⟩ hrestores).right
  rcases hstays with ⟨hdropped, hstays⟩ | ⟨⟨other, _, _, hother, hdropped⟩, hgone⟩
  · exact Or.inl ⟨fun hnow => hdropped ⟨source, entry, recorded, hlast, hnow⟩, hstays⟩
  · rw [hlast.source_unique hother rfl] at hdropped
    exact Or.inr ⟨hdropped, hgone⟩

/-- On a store that works, where the cache is not cleared and calls at work are not
interrupted: at every moment when no call is at work, a file has at most one stored key in
memory, and a stored key is left in memory and in the store only as long as no other key of
the file is stored.  A key that was only restored is not dropped that way. -/
theorem one_live_after (hcache : scene.cache = .empty) (hstore : setup.store = some store)
    (hmoves : forall moment, moment < count ->
      ((opened scene).after setup moves moment).Uninterrupted Phase.isActing (moves moment))
    (hclear : forall moment, moment < count -> moves moment ≠ .clear)
    (hheeds : forall moment key, moment < count ->
      ((opened scene).after setup moves moment).Heeds store key
        ((opened scene).after setup moves (moment + 1)) (moves moment))
    (hle : moment ≤ count)
    (hsettled : forall caller, caller ∈ ((opened scene).after setup moves moment).callers ->
      caller.call.phase.isActing = false) :
    (opened scene).OneLiveAt setup moves store moment := by
  have htidy := (tidy_after hcache hstore hmoves hclear hheeds hle).left
  have hfree := free_of_not_acting hsettled
  have hreplaced := fun source call later other =>
    @Tidy.replaced_gone _ _ _ setup moves store (opened scene) moment htidy hfree source later call
      other
  constructor
  case present =>
    intro key entry hentry
    have hchecks : forall moment, moment < count ->
        ((opened scene).after setup moves moment).Uninterrupted Phase.isChecking (moves moment) :=
      fun moment hlt => (hmoves moment hlt).mono fun _ => Phase.isActing_of_isChecking
    rcases (entered_after hcache hchecks hle key).right entry hentry with
      ⟨source, call, recorded, hkey, hlast, _⟩
    refine ⟨source, call, hkey, ?_⟩
    rcases hlast.enters.kinds with hcomputes | ⟨persisted, hrestores⟩
    · exact Or.inl ⟨hcomputes, entry, recorded, hlast⟩
    · exact Or.inr ⟨persisted, hrestores, entry, recorded, hlast⟩
  case replaced => exact hreplaced
  case unique =>
    intro source call later other hstored hother hfile hentry hfound
    rcases hstored with ⟨hcomputes, entry, recorded, hlast⟩
    rcases hother with ⟨hcomputes', entry', recorded', hlast'⟩
    rcases Nat.lt_trichotomy source later with hlt | heq | hgt
    · have hgone := hreplaced source call later other ⟨hcomputes, entry, recorded, hlast⟩ hlt
        hlast'.earlier ⟨hcomputes', entry', recorded', hlast'.enters⟩ hfile
      exact absurd hgone.left hentry
    · subst heq
      rw [hlast.enters.unique hlast'.enters]
    · have hgone := hreplaced later other source call ⟨hcomputes', entry', recorded', hlast'⟩ hgt
        hlast.earlier ⟨hcomputes, entry, recorded, hlast.enters⟩ hfile.symm
      exact absurd hgone.left hfound
  case lingering =>
    intro source call persisted hrestored hdropped
    rcases htidy.restored_stays hrestored with ⟨_, hstays⟩ | ⟨hnow, _⟩
    · exact hstays
    · exact absurd hnow hdropped
  case exact =>
    rintro file key ⟨latest, kept, hbound, hkept, hfile, hkey, hlatest⟩
    constructor
    · intro hgone source call persisted hrestored hsame hother
      rcases htidy.restored_stays hrestored with ⟨_, hentry, _⟩ | ⟨hnow, _⟩
      · have hnone := (hgone source call (Or.inr ⟨persisted, hrestored⟩) hsame hother).left
        rw [hentry] at hnone
        cases hnone
      · exact hnow
    · intro hdropped source call hlast hsame hother
      rcases hlast with hstored | ⟨persisted, hrestored⟩
      · rcases hstored with ⟨hcomputes, entry, recorded, hlast⟩
        have horder : source < latest := by
          rcases Nat.lt_trichotomy source latest with hlt | heq | hgt
          · exact hlt
          · rcases hkept with ⟨_, keptEntry, keptFiles, henters⟩
            rw [heq] at hlast
            rw [henters.unique hlast.enters] at hother
            exact absurd hkey hother
          · exact absurd hsame
              (hlatest source call hgt hlast.earlier ⟨hcomputes, entry, recorded, hlast.enters⟩)
        exact hreplaced source call latest kept ⟨hcomputes, entry, recorded, hlast⟩ horder hbound
          hkept (hfile.trans hsame.symm)
      · rcases htidy.restored_stays hrestored with ⟨hstays, _⟩ | ⟨_, hgone⟩
        · exact absurd (hdropped source call persisted hrestored hsame hother) hstays
        · exact hgone

end Runs

end Crowd

/-!
# A file with an entry from before, edited and then got under a plain key
-/

structure EntryShelf where
  files : FileSystem
  held : Table String (PersistedEntry String)

namespace EntryShelf

instance : Disk EntryShelf where
  files := EntryShelf.files
  withFiles shelf fs := { shelf with files := fs }

def store : Store EntryShelf String where
  load key shelf := (.ok (shelf.held.find? key), shelf)
  save persisted shelf :=
    (.ok (), { shelf with held := shelf.held.insert persisted.key persisted })
  remove key shelf := (.ok (), { shelf with held := shelf.held.erase key })

theorem steady_store : store.Steady where
  load := fun _ _ => rfl
  save := by
    intro key persisted shelf hkey
    change Except.ok ((shelf.held.insert persisted.key persisted).find? key) = _
    rw [Table.find?_insert_of_ne _ _ hkey]
    rfl
  remove := by
    intro key other shelf
    change Except.ok ((shelf.held.erase other).find? key) = _
    by_cases hkey : key = other
    · rw [if_pos hkey, hkey, Table.find?_erase_self]
    · rw [if_neg hkey, Table.find?_erase_of_ne _ hkey]
      rfl

end EntryShelf

namespace Crowd

def pageOf (content : UInt8) (seconds : Nat) : FileSystem :=
  (FileSystem.new [] ⟨0, 0⟩).put ["a"] (.file ⟨⟨#[content]⟩, ⟨seconds, 0⟩⟩)

def hashedKey (hash : String) : CacheKey :=
  ⟨⟨"a"⟩, some ⟨hash⟩⟩

def earlierEntry : PersistedEntry String :=
  ⟨(hashedKey "h").text, ⟨"v", 0, none, 0⟩,
    [⟨⟨⟨"a"⟩, 1, (⟨1, 0⟩ : Timestamp).millis⟩, ⟨"h"⟩, false⟩]⟩

def earlierHeld : Table String (PersistedEntry String) :=
  Table.empty.insert earlierEntry.key earlierEntry

def earlierScene : Scene EntryShelf String :=
  ⟨.empty, ⟨pageOf 65 1, earlierHeld⟩, []⟩

def entryStored : CacheSetup EntryShelf String :=
  ⟨false, some EntryShelf.store⟩

/-- The first content under its strict key, the second one under its own, and then again
under the plain key. -/
def contentRun : List (Move EntryShelf String) :=
  let options : CallOptions := ⟨none, .zero, false⟩
  let next (index : Nat) := Move.advance index 0
  [.start (hashedKey "h") options, next 0, next 0, next 0, next 0, next 0,
    .disturb ⟨pageOf 66 2, earlierHeld⟩, .start (hashedKey "i") options, next 1, next 1, next 1,
    next 1, next 1, next 1, .deliver 1 0 (.ok ⟨"w", []⟩), next 1, next 1, next 1,
    .start (.file ⟨"a"⟩) options, next 2, next 2, next 2, next 2, next 2, next 2,
    .deliver 2 0 (.ok ⟨"x", []⟩), next 2, next 2, next 2, next 2, next 2]

def contentCrowd (moment : Nat) : Crowd EntryShelf String :=
  (opened earlierScene).after entryStored (script contentRun) moment

theorem uninterrupted_content : forall moment, moment < 31 ->
    (contentCrowd moment).Uninterrupted Phase.isActing (script contentRun moment) := by
  decide +kernel

theorem not_clear_content : forall moment, moment < 31 -> script contentRun moment ≠ .clear := by
  intro moment hlt
  interval_cases moment <;> exact nofun

theorem heeds_content (moment : Nat) (key : String) (hlt : moment < 31) :
    (contentCrowd moment).Heeds EntryShelf.store key (contentCrowd (moment + 1))
      (script contentRun moment) := by
  apply EntryShelf.steady_store.heeds rfl
  intro disk hmove
  have hedit : moment = 6 := by
    interval_cases moment <;> first | rfl | cases hmove
  subst hedit
  cases hmove
  have hheld : (contentCrowd 6).scene.disk.held.entries = earlierHeld.entries := by
    decide +kernel
  change Except.ok (earlierHeld.find? key) =
    Except.ok ((contentCrowd 6).scene.disk.held.find? key)
  unfold Table.find?
  rw [hheld]

theorem one_live_after_edited :
    (opened earlierScene).OneLiveAt entryStored (script contentRun) EntryShelf.store 31 ∧
      (contentCrowd 31).scene.cache.entries.entries.map Prod.fst = ["file:a", "file:a:h"] ∧
      (contentCrowd 31).scene.disk.held.entries.map Prod.fst = ["file:a", "file:a:h"] := by
  have hsettled : forall caller, caller ∈ (contentCrowd 31).callers ->
      caller.call.phase.isActing = false := by
    decide +kernel
  refine ⟨?_, by decide +kernel, by decide +kernel⟩
  exact one_live_after rfl rfl uninterrupted_content not_clear_content heeds_content
    (Nat.le_refl 31) hsettled

/-- After a value was stored under a new strict key, the old key of the file, which was
restored, is still in memory and in the store. -/
theorem two_live_keys :
    (forall moment, moment < 18 ->
        (contentCrowd moment).Uninterrupted Phase.isActing (script contentRun moment)) ∧
      (forall moment, moment < 18 -> script contentRun moment ≠ .clear) ∧
      (forall moment key, moment < 18 ->
        (contentCrowd moment).Heeds EntryShelf.store key (contentCrowd (moment + 1))
          (script contentRun moment)) ∧
      (forall caller, caller ∈ (contentCrowd 18).callers ->
        caller.call.phase.isActing = false) ∧
      (opened earlierScene).LatestAt entryStored (script contentRun) 18
        (hashedKey "i").path.components (hashedKey "i").text ∧
      (hashedKey "h").path = (hashedKey "i").path ∧
      (hashedKey "h").text ≠ (hashedKey "i").text ∧
      (contentCrowd 18).scene.cache.entries.entries.map Prod.fst =
        [(hashedKey "i").text, (hashedKey "h").text] ∧
      (contentCrowd 18).scene.disk.held.entries.map Prod.fst =
        [(hashedKey "i").text, (hashedKey "h").text] := by
  have hwithin : forall {moment}, moment < 18 -> moment < 31 :=
    fun hlt => Nat.lt_trans hlt (by decide)
  refine ⟨fun moment hlt => uninterrupted_content moment (hwithin hlt),
    fun moment hlt => not_clear_content moment (hwithin hlt),
    fun moment key hlt => heeds_content moment key (hwithin hlt), by decide +kernel, ?_, rfl,
    by decide, by decide +kernel, by decide +kernel⟩
  have hcomputing : (contentCrowd 14).callers[1]?.map
      (fun caller => (caller.call.key, caller.call.phase.rank)) = some (hashedKey "i", 6) := by
    decide +kernel
  obtain ⟨caller, hcaller, hcall⟩ := Option.map_eq_some_iff.mp hcomputing
  obtain ⟨hkey, hrank⟩ := Prod.mk.inj hcall
  obtain ⟨ticket, primary, hphase⟩ : caller.call.Computes := by
    cases hphase : caller.call.phase <;> rw [hphase] at hrank <;>
      first | exact ⟨_, _, hphase⟩ | simp [Phase.rank] at hrank
  refine ⟨14, caller.call, by decide, ⟨⟨ticket, primary, hphase⟩, _, _, .stored hcaller hphase⟩,
    congrArg (fun key => key.path.components) hkey, congrArg CacheKey.text hkey, ?_⟩
  rintro later other hlater hlt ⟨⟨ticket, primary, hother⟩, entry, recorded, henters⟩
  -- only steps of the call come after it
  unfold EntersAt at henters
  interval_cases later <;>
  · cases henters with
    | restored _ hrestoring _ =>
        rw [hother] at hrestoring
        cases hrestoring

end Crowd
end LessonPress

import LessonPress.Proofs.Cache.Tasks

/-!
# Tables in good order

## What memory, the store and the current keys have to do with the past

A key under which a value was kept is in memory, or gone from the store as well, or a call
has still to see to it.  The current key of a file is the latest one that was kept.  An
entry that was restored stays until its key is invalidated.  Every deed keeps this order.
-/

namespace LessonPress

namespace Call

variable {alpha : Type}

def Computes (call : Call alpha) : Prop :=
  exists ticket primary, call.phase = .computing ticket primary

def Restores (call : Call alpha) (persisted : PersistedEntry alpha) : Prop :=
  call.phase = .restoring (.ok (some persisted))

theorem Restores.not_computes {call : Call alpha} {persisted : PersistedEntry alpha}
    (h : call.Restores persisted) : ¬ call.Computes := by
  rintro ⟨ticket, primary, hphase⟩
  unfold Restores at h
  rw [h] at hphase
  cases hphase

def components (call : Call alpha) : List FilePath.Component :=
  call.key.path.components

end Call

namespace Crowd

variable {sigma alpha : Type}

theorem Enters.kinds {crowd : Crowd sigma alpha} {move : Move sigma alpha} {call : Call alpha}
    {entry : CacheEntry alpha} {recorded : Option (List TrackedFile)}
    (h : crowd.Enters move call entry recorded) :
    call.Computes ∨ exists persisted, call.Restores persisted := by
  cases h with
  | stored _ hphase => exact Or.inl ⟨_, _, hphase⟩
  | restored _ hphase _ => exact Or.inr ⟨_, hphase⟩

/-- What a cache has kept, restored and dropped so far: the keys under which it has kept
values, the latest such key of each file, the calls whose entries were the last ones put
under their keys, and those of them whose keys have been invalidated since. -/
@[ext] structure Past (alpha : Type) where
  kept : String -> Prop
  latest : List FilePath.Component -> String -> Prop
  entered : Call alpha -> Prop
  dropped : Call alpha -> Prop

namespace Past

variable {alpha : Type}

def enter (past : Past alpha) (call : Call alpha) : Past alpha :=
  { past with
    entered := fun other => other = call ∨ past.entered other ∧ other.keyText ≠ call.keyText
    dropped := fun other => past.dropped other ∧ other.keyText ≠ call.keyText }

def keep (past : Past alpha) (call : Call alpha) : Past alpha :=
  { past.enter call with
    kept := fun key => past.kept key ∨ call.keyText = key
    latest := fun file key => past.latest file key ∧ call.components ≠ file ∨
      call.components = file ∧ call.keyText = key }

def drop (past : Past alpha) (key : String) : Past alpha :=
  { past with dropped := fun call => past.dropped call ∨ past.entered call ∧ call.keyText = key }

end Past

structure Tidy (store : Store sigma alpha) (past : Past alpha) (crowd : Crowd sigma alpha) :
    Prop where
  held : forall key, past.kept key ->
    crowd.scene.cache.entries.find? key ≠ none ∨
      store.found key crowd.scene.disk = .ok none ∨
      (exists own : CacheKey, own.text = key ∧ crowd.Has (.adopt own)) ∨
      crowd.Has (.discard key)
  current : forall call, past.entered call -> call.Computes ->
    crowd.scene.cache.currentKeys.find? call.components = some call.keyText ∨
      crowd.scene.cache.entries.find? call.keyText = none ∨ crowd.Has (.adopt call.key)
  latest : forall file key, crowd.scene.cache.currentKeys.find? file = some key ->
    past.latest file key ∨
      exists own : CacheKey, own.path.components = file ∧ crowd.Has (.adopt own)
  known : forall file key, crowd.scene.cache.currentKeys.find? file = some key -> past.kept key
  adopting : forall key : CacheKey, crowd.Has (.adopt key) ->
    past.kept key.text ∧ past.latest key.path.components key.text ∧
      crowd.scene.cache.entries.find? key.text ≠ none
  discarding : forall key, crowd.Has (.discard key) ->
    past.kept key ∧ crowd.scene.cache.entries.find? key = none
  restored : forall call persisted, past.entered call -> call.Restores persisted ->
    ¬ past.kept call.keyText ∧
      ((¬ past.dropped call ∧
          crowd.scene.cache.entries.find? call.keyText = some persisted.entry ∧
          store.found call.keyText crowd.scene.disk = .ok (some persisted)) ∨
        (past.dropped call ∧ crowd.scene.cache.entries.find? call.keyText = none ∧
          store.found call.keyText crowd.scene.disk = .ok none))

namespace Tidy

variable {store : Store sigma alpha} {past : Past alpha} {crowd next : Crowd sigma alpha}

theorem quiet (h : crowd.Tidy store past)
    (hentries : next.scene.cache.entries = crowd.scene.cache.entries)
    (hkeys : next.scene.cache.currentKeys = crowd.scene.cache.currentKeys)
    (hfound : forall key,
      store.found key next.scene.disk = store.found key crowd.scene.disk)
    (hhas : forall task, next.Has task <-> crowd.Has task) : next.Tidy store past := by
  constructor
  case held =>
    intro key
    simp only [hentries, hfound, hhas]
    exact h.held key
  case current =>
    intro call
    rw [hentries, hkeys, hhas]
    exact h.current call
  case latest =>
    intro file key
    simp only [hkeys, hhas]
    exact h.latest file key
  case known =>
    intro file key
    rw [hkeys]
    exact h.known file key
  case adopting =>
    intro key
    rw [hentries, hhas]
    exact h.adopting key
  case discarding =>
    intro key
    rw [hentries, hhas]
    exact h.discarding key
  case restored =>
    intro call persisted
    rw [hentries, hfound]
    exact h.restored call persisted

theorem saved (h : crowd.Tidy store past) {key : CacheKey}
    (hentries : next.scene.cache.entries = crowd.scene.cache.entries)
    (hkeys : next.scene.cache.currentKeys = crowd.scene.cache.currentKeys)
    (hfound : forall other, other ≠ key.text ->
      store.found other next.scene.disk = store.found other crowd.scene.disk)
    (hbefore : crowd.Only (.adopt key)) (hhas : next.Only (.adopt key)) :
    next.Tidy store past := by
  have hsame : forall task, next.Has task <-> crowd.Has task :=
    fun task => (hhas task).trans (hbefore task).symm
  have hadopting := h.adopting key ((hbefore _).mpr rfl)
  constructor
  case held =>
    intro other hkept
    by_cases hother : other = key.text
    · exact Or.inr (Or.inr (Or.inl ⟨key, hother.symm, (hhas _).mpr rfl⟩))
    · simp only [hentries, hfound other hother, hsame]
      exact h.held other hkept
  case current =>
    intro call
    rw [hentries, hkeys, hsame]
    exact h.current call
  case latest =>
    intro file other
    simp only [hkeys, hsame]
    exact h.latest file other
  case known =>
    intro file other
    rw [hkeys]
    exact h.known file other
  case adopting =>
    intro other
    rw [hentries, hsame]
    exact h.adopting other
  case discarding =>
    intro other
    rw [hentries, hsame]
    exact h.discarding other
  case restored =>
    intro call persisted hentered hrestores
    have hrestored := h.restored call persisted hentered hrestores
    have hother : call.keyText ≠ key.text := by
      intro heq
      rw [heq] at hrestored
      exact hrestored.left hadopting.left
    rw [hentries, hfound _ hother]
    exact hrestored

theorem adopted (h : crowd.Tidy store past) {key : CacheKey}
    (hprevious : forall previous,
      crowd.scene.cache.currentKeys.find? key.path.components = some previous ->
      previous = key.text)
    (hentries : next.scene.cache.entries = crowd.scene.cache.entries)
    (hkeys : next.scene.cache.currentKeys =
      crowd.scene.cache.currentKeys.insert key.path.components key.text)
    (hfound : forall key,
      store.found key next.scene.disk = store.found key crowd.scene.disk)
    (hbefore : crowd.Only (.adopt key)) (hhas : next.Free) : next.Tidy store past := by
  have hadopting := h.adopting key ((hbefore _).mpr rfl)
  constructor
  case held =>
    intro other hkept
    rw [hentries, hfound]
    rcases h.held other hkept with hentry | hgone | ⟨own, hown, htask⟩ | htask
    · exact Or.inl hentry
    · exact Or.inr (Or.inl hgone)
    · cases (hbefore _).mp htask
      rw [← hown]
      exact Or.inl hadopting.right.right
    · cases (hbefore _).mp htask
  case current =>
    intro call hentered hcomputes
    rw [hentries, hkeys]
    rcases h.current call hentered hcomputes with hcurrent | hnone | htask
    · by_cases hfile : call.components = key.path.components
      · rw [hfile] at hcurrent ⊢
        rw [Table.find?_insert_self, hprevious _ hcurrent]
        exact Or.inl rfl
      · rw [Table.find?_insert_of_ne _ _ hfile]
        exact Or.inl hcurrent
    · exact Or.inr (Or.inl hnone)
    · cases (hbefore _).mp htask
      exact Or.inl (Table.find?_insert_self ..)
  case latest =>
    intro file other hcurrent
    rw [hkeys] at hcurrent
    rcases Table.find?_insert_cases hcurrent with hold | ⟨hfile, hother⟩
    · by_cases hfile : file = key.path.components
      · rw [hfile] at hold ⊢
        rw [hprevious _ hold]
        exact Or.inl hadopting.right.left
      · rcases h.latest file other hold with hlatest | ⟨own, hown, htask⟩
        · exact Or.inl hlatest
        · cases (hbefore _).mp htask
          exact absurd hown.symm hfile
    · rw [hfile, hother]
      exact Or.inl hadopting.right.left
  case known =>
    intro file other hcurrent
    rw [hkeys] at hcurrent
    rcases Table.find?_insert_cases hcurrent with hold | ⟨_, hother⟩
    · exact h.known file other hold
    · rw [hother]
      exact hadopting.left
  case adopting => exact fun other htask => absurd htask (hhas _)
  case discarding => exact fun other htask => absurd htask (hhas _)
  case restored =>
    intro call persisted
    rw [hentries, hfound]
    exact h.restored call persisted

theorem replaced (h : crowd.Tidy store past) {key : CacheKey} {previous : String}
    (hprevious : crowd.scene.cache.currentKeys.find? key.path.components = some previous)
    (hne : previous ≠ key.text)
    (hentries : next.scene.cache.entries = crowd.scene.cache.entries.erase previous)
    (hkeys : next.scene.cache.currentKeys =
      crowd.scene.cache.currentKeys.insert key.path.components key.text)
    (hfound : forall key,
      store.found key next.scene.disk = store.found key crowd.scene.disk)
    (hbefore : crowd.Only (.adopt key)) (hhas : next.Only (.discard previous)) :
    next.Tidy store past := by
  have hadopting := h.adopting key ((hbefore _).mpr rfl)
  have hknown := h.known _ _ hprevious
  have herased : next.scene.cache.entries.find? previous = none := by
    rw [hentries]
    exact Table.find?_erase_self ..
  have hother : forall other, other ≠ previous -> next.scene.cache.entries.find? other =
      crowd.scene.cache.entries.find? other := by
    intro other hother
    rw [hentries]
    exact Table.find?_erase_of_ne _ hother
  constructor
  case held =>
    intro other hkept
    by_cases heq : other = previous
    · rw [heq]
      exact Or.inr (Or.inr (Or.inr ((hhas _).mpr rfl)))
    · rw [hother other heq, hfound]
      rcases h.held other hkept with hentry | hgone | ⟨own, hown, htask⟩ | htask
      · exact Or.inl hentry
      · exact Or.inr (Or.inl hgone)
      · cases (hbefore _).mp htask
        rw [← hown]
        exact Or.inl hadopting.right.right
      · cases (hbefore _).mp htask
  case current =>
    intro call hentered hcomputes
    by_cases heq : call.keyText = previous
    · rw [heq]
      exact Or.inr (Or.inl herased)
    · rw [hother _ heq, hkeys]
      rcases h.current call hentered hcomputes with hcurrent | hnone | htask
      · have hfile : call.components ≠ key.path.components := by
          intro hfile
          rw [hfile, hprevious] at hcurrent
          exact heq (Option.some.inj hcurrent).symm
        rw [Table.find?_insert_of_ne _ _ hfile]
        exact Or.inl hcurrent
      · exact Or.inr (Or.inl hnone)
      · cases (hbefore _).mp htask
        exact Or.inl (Table.find?_insert_self ..)
  case latest =>
    intro file other hcurrent
    rw [hkeys] at hcurrent
    by_cases hfile : file = key.path.components
    · rw [hfile, Table.find?_insert_self] at hcurrent
      rw [hfile, ← Option.some.inj hcurrent]
      exact Or.inl hadopting.right.left
    · rw [Table.find?_insert_of_ne _ _ hfile] at hcurrent
      rcases h.latest file other hcurrent with hlatest | ⟨own, hown, htask⟩
      · exact Or.inl hlatest
      · cases (hbefore _).mp htask
        exact absurd hown.symm hfile
  case known =>
    intro file other hcurrent
    rw [hkeys] at hcurrent
    rcases Table.find?_insert_cases hcurrent with hold | ⟨_, hother⟩
    · exact h.known file other hold
    · rw [hother]
      exact hadopting.left
  case adopting => exact fun other htask => nomatch (hhas _).mp htask
  case discarding =>
    intro other htask
    cases (hhas _).mp htask
    exact ⟨hknown, herased⟩
  case restored =>
    intro call persisted hentered hrestores
    have hrestored := h.restored call persisted hentered hrestores
    have heq : call.keyText ≠ previous := by
      intro heq
      rw [heq] at hrestored
      exact hrestored.left hknown
    rw [hother _ heq, hfound]
    exact hrestored

theorem discarded (h : crowd.Tidy store past) {previous : String}
    (hentries : next.scene.cache.entries = crowd.scene.cache.entries)
    (hkeys : next.scene.cache.currentKeys = crowd.scene.cache.currentKeys)
    (hremoved : store.found previous next.scene.disk = .ok none)
    (hfound : forall other, other ≠ previous ->
      store.found other next.scene.disk = store.found other crowd.scene.disk)
    (hbefore : crowd.Only (.discard previous)) (hhas : next.Free) : next.Tidy store past := by
  have hdiscarding := h.discarding previous ((hbefore _).mpr rfl)
  constructor
  case held =>
    intro other hkept
    by_cases heq : other = previous
    · rw [heq]
      exact Or.inr (Or.inl hremoved)
    · rw [hentries, hfound other heq]
      rcases h.held other hkept with hentry | hgone | ⟨own, hown, htask⟩ | htask
      · exact Or.inl hentry
      · exact Or.inr (Or.inl hgone)
      · cases (hbefore _).mp htask
      · cases (hbefore _).mp htask
        exact absurd rfl heq
  case current =>
    intro call hentered hcomputes
    rw [hentries, hkeys]
    rcases h.current call hentered hcomputes with hcurrent | hnone | htask
    · exact Or.inl hcurrent
    · exact Or.inr (Or.inl hnone)
    · cases (hbefore _).mp htask
  case latest =>
    intro file other hcurrent
    rw [hkeys] at hcurrent
    rcases h.latest file other hcurrent with hlatest | ⟨own, _, htask⟩
    · exact Or.inl hlatest
    · cases (hbefore _).mp htask
  case known =>
    intro file other
    rw [hkeys]
    exact h.known file other
  case adopting => exact fun other htask => absurd htask (hhas _)
  case discarding => exact fun other htask => absurd htask (hhas _)
  case restored =>
    intro call persisted hentered hrestores
    have hrestored := h.restored call persisted hentered hrestores
    have heq : call.keyText ≠ previous := by
      intro heq
      rw [heq] at hrestored
      exact hrestored.left hdiscarding.left
    rw [hentries, hfound _ heq]
    exact hrestored

theorem restored_entry (h : crowd.Tidy store past) {call : Call alpha}
    {persisted : PersistedEntry alpha} (hrestores : call.Restores persisted)
    (hentry : crowd.scene.cache.entries.find? call.keyText = none)
    (hloaded : store.found call.keyText crowd.scene.disk = .ok (some persisted))
    (hentries : next.scene.cache.entries =
      crowd.scene.cache.entries.insert call.keyText persisted.entry)
    (hkeys : next.scene.cache.currentKeys = crowd.scene.cache.currentKeys)
    (hfound : forall key,
      store.found key next.scene.disk = store.found key crowd.scene.disk)
    (hbefore : crowd.Free) (hhas : next.Free) : next.Tidy store (past.enter call) := by
  have hself : next.scene.cache.entries.find? call.keyText = some persisted.entry := by
    rw [hentries]
    exact Table.find?_insert_self ..
  have hother : forall other, other ≠ call.keyText -> next.scene.cache.entries.find? other =
      crowd.scene.cache.entries.find? other := by
    intro other hother
    rw [hentries]
    exact Table.find?_insert_of_ne _ _ hother
  have hunkept : ¬ past.kept call.keyText := by
    intro hkept
    rcases h.held _ hkept with hheld | hgone | ⟨own, _, htask⟩ | htask
    · exact hheld hentry
    · rw [hloaded] at hgone
      cases hgone
    · exact hbefore _ htask
    · exact hbefore _ htask
  constructor
  case held =>
    intro other hkept
    have heq : other ≠ call.keyText := fun heq => hunkept (heq ▸ hkept)
    rw [hother other heq, hfound]
    rcases h.held other hkept with hentry | hgone | ⟨own, _, htask⟩ | htask
    · exact Or.inl hentry
    · exact Or.inr (Or.inl hgone)
    · exact absurd htask (hbefore _)
    · exact absurd htask (hbefore _)
  case current =>
    rintro other (rfl | ⟨hentered, heq⟩) hcomputes
    · exact absurd hcomputes hrestores.not_computes
    · rw [hother _ heq, hkeys]
      rcases h.current other hentered hcomputes with hcurrent | hnone | htask
      · exact Or.inl hcurrent
      · exact Or.inr (Or.inl hnone)
      · exact absurd htask (hbefore _)
  case latest =>
    intro file key hcurrent
    rw [hkeys] at hcurrent
    rcases h.latest file key hcurrent with hlatest | ⟨own, _, htask⟩
    · exact Or.inl hlatest
    · exact absurd htask (hbefore _)
  case known =>
    intro file key
    rw [hkeys]
    exact h.known file key
  case adopting => exact fun key htask => absurd htask (hhas _)
  case discarding => exact fun key htask => absurd htask (hhas _)
  case restored =>
    rintro other found (rfl | ⟨hentered, heq⟩) hrestored
    · unfold Call.Restores at hrestores hrestored
      rw [hrestores] at hrestored
      cases hrestored
      refine ⟨hunkept, Or.inl ⟨fun hdropped => hdropped.right rfl, hself, ?_⟩⟩
      rw [hfound]
      exact hloaded
    · have hbefore := h.restored other found hentered hrestored
      rw [hother _ heq, hfound]
      refine ⟨hbefore.left, ?_⟩
      rcases hbefore.right with ⟨hdropped, hstays⟩ | ⟨hdropped, hgone⟩
      · exact Or.inl ⟨fun hnow => hdropped hnow.left, hstays⟩
      · exact Or.inr ⟨⟨hdropped, heq⟩, hgone⟩

theorem kept_entry (h : crowd.Tidy store past) {call : Call alpha} {entry : CacheEntry alpha}
    (hcomputes : call.Computes)
    (hentries : next.scene.cache.entries = crowd.scene.cache.entries.insert call.keyText entry)
    (hkeys : next.scene.cache.currentKeys = crowd.scene.cache.currentKeys)
    (hfound : forall key,
      store.found key next.scene.disk = store.found key crowd.scene.disk)
    (hbefore : crowd.Free) (hhas : next.Only (.adopt call.key)) :
    next.Tidy store (past.keep call) := by
  have hself : next.scene.cache.entries.find? call.keyText ≠ none := by
    rw [hentries, Table.find?_insert_self]
    exact Option.some_ne_none _
  have hother : forall other, other ≠ call.keyText -> next.scene.cache.entries.find? other =
      crowd.scene.cache.entries.find? other := by
    intro other hother
    rw [hentries]
    exact Table.find?_insert_of_ne _ _ hother
  have htask : next.Has (.adopt call.key) := (hhas _).mpr rfl
  constructor
  case held =>
    rintro key (hkept | rfl)
    · by_cases heq : key = call.keyText
      · rw [heq]
        exact Or.inl hself
      · rw [hother key heq, hfound]
        rcases h.held key hkept with hentry | hgone | ⟨own, _, hold⟩ | hold
        · exact Or.inl hentry
        · exact Or.inr (Or.inl hgone)
        · exact absurd hold (hbefore _)
        · exact absurd hold (hbefore _)
    · exact Or.inl hself
  case current =>
    rintro other (rfl | ⟨hentered, heq⟩) hother'
    · exact Or.inr (Or.inr htask)
    · rw [hother _ heq, hkeys]
      rcases h.current other hentered hother' with hcurrent | hnone | hold
      · exact Or.inl hcurrent
      · exact Or.inr (Or.inl hnone)
      · exact absurd hold (hbefore _)
  case latest =>
    intro file key hcurrent
    rw [hkeys] at hcurrent
    by_cases hfile : call.components = file
    · exact Or.inr ⟨call.key, hfile, htask⟩
    · rcases h.latest file key hcurrent with hlatest | ⟨own, _, hold⟩
      · exact Or.inl (Or.inl ⟨hlatest, hfile⟩)
      · exact absurd hold (hbefore _)
  case known =>
    intro file key hcurrent
    rw [hkeys] at hcurrent
    exact Or.inl (h.known file key hcurrent)
  case adopting =>
    intro key hadopt
    cases (hhas _).mp hadopt
    exact ⟨Or.inr rfl, Or.inr ⟨rfl, rfl⟩, hself⟩
  case discarding => exact fun key hdiscard => nomatch (hhas _).mp hdiscard
  case restored =>
    rintro other persisted (rfl | ⟨hentered, heq⟩) hrestores
    · exact absurd hcomputes hrestores.not_computes
    · have hrestored := h.restored other persisted hentered hrestores
      rw [hother _ heq, hfound]
      constructor
      · rintro (hkept | hkey)
        · exact hrestored.left hkept
        · exact heq hkey.symm
      · rcases hrestored.right with ⟨hdropped, hstays⟩ | ⟨hdropped, hgone⟩
        · exact Or.inl ⟨fun hnow => hdropped hnow.left, hstays⟩
        · exact Or.inr ⟨⟨hdropped, heq⟩, hgone⟩

theorem invalidated (h : crowd.Tidy store past) {key : CacheKey}
    (hentries : next.scene.cache.entries = crowd.scene.cache.entries.erase key.text)
    (hkeys : forall file other, next.scene.cache.currentKeys.find? file = some other ->
      crowd.scene.cache.currentKeys.find? file = some other)
    (hcurrent : forall file other, other ≠ key.text ->
      crowd.scene.cache.currentKeys.find? file = some other ->
      next.scene.cache.currentKeys.find? file = some other)
    (hremoved : store.found key.text next.scene.disk = .ok none)
    (hfound : forall other, other ≠ key.text ->
      store.found other next.scene.disk = store.found other crowd.scene.disk)
    (hbefore : crowd.Free) (hhas : next.Free) : next.Tidy store (past.drop key.text) := by
  have hself : next.scene.cache.entries.find? key.text = none := by
    rw [hentries]
    exact Table.find?_erase_self ..
  have hother : forall other, other ≠ key.text -> next.scene.cache.entries.find? other =
      crowd.scene.cache.entries.find? other := by
    intro other hother
    rw [hentries]
    exact Table.find?_erase_of_ne _ hother
  constructor
  case held =>
    intro other hkept
    by_cases heq : other = key.text
    · rw [heq]
      exact Or.inr (Or.inl hremoved)
    · rw [hother other heq, hfound other heq]
      rcases h.held other hkept with hentry | hgone | ⟨own, _, htask⟩ | htask
      · exact Or.inl hentry
      · exact Or.inr (Or.inl hgone)
      · exact absurd htask (hbefore _)
      · exact absurd htask (hbefore _)
  case current =>
    intro call hentered hcomputes
    by_cases heq : call.keyText = key.text
    · rw [heq]
      exact Or.inr (Or.inl hself)
    · rw [hother _ heq]
      rcases h.current call hentered hcomputes with hold | hnone | htask
      · exact Or.inl (hcurrent _ _ heq hold)
      · exact Or.inr (Or.inl hnone)
      · exact absurd htask (hbefore _)
  case latest =>
    intro file other hnow
    rcases h.latest file other (hkeys _ _ hnow) with hlatest | ⟨own, _, htask⟩
    · exact Or.inl hlatest
    · exact absurd htask (hbefore _)
  case known => exact fun file other hnow => h.known file other (hkeys _ _ hnow)
  case adopting => exact fun other htask => absurd htask (hhas _)
  case discarding => exact fun other htask => absurd htask (hhas _)
  case restored =>
    intro call persisted hentered hrestores
    have hrestored := h.restored call persisted hentered hrestores
    refine ⟨hrestored.left, ?_⟩
    by_cases heq : call.keyText = key.text
    · rw [heq]
      exact Or.inr ⟨Or.inr ⟨hentered, heq⟩, hself, hremoved⟩
    · rw [hother _ heq, hfound _ heq]
      rcases hrestored.right with ⟨hdropped, hstays⟩ | ⟨hdropped, hgone⟩
      · refine Or.inl ⟨?_, hstays⟩
        rintro (hold | ⟨_, hkey⟩)
        · exact hdropped hold
        · exact heq hkey
      · exact Or.inr ⟨Or.inl hdropped, hgone⟩

end Tidy

end Crowd
end LessonPress

import LessonPress.Proofs.Cache.Orderly
import LessonPress.Proofs.Cache.Renewal

/-!
# How entries come into memory

## What any move makes of the entry and the list of a key

A computation stores its value, or a loaded entry is restored: then the key gets an entry
and the list that is recorded for it.  Every other move leaves the two as they are, drops
both, or renews the list at the end of a check.
-/

namespace LessonPress

namespace Crowd

variable {sigma alpha : Type}

/-- The move puts an entry into memory: it completes a computation and keeps the value, or
it restores a loaded entry.  The last part is the list of files that is recorded for the
entry; there is none if the key's own file could not be captured. -/
inductive Enters (crowd : Crowd sigma alpha) :
    Move sigma alpha -> Call alpha -> CacheEntry alpha -> Option (List TrackedFile) -> Prop where
  | stored {index : Nat} {now : UInt64} {computed : Computed alpha} {caller : Caller alpha}
      {ticket : Ticket alpha} {primary : Option TrackedFile} :
      crowd.callers[index]? = some caller -> caller.call.phase = .computing ticket primary ->
      Enters crowd (.deliver index now (.ok computed)) caller.call
        (caller.call.keep now crowd.scene.cache primary computed).1.entry
        (primary.map fun own => Call.trackedFiles (some own) computed.dependencies)
  | restored {index : Nat} {now : UInt64} {caller : Caller alpha}
      {persisted : PersistedEntry alpha} :
      crowd.callers[index]? = some caller ->
      caller.call.phase = .restoring (.ok (some persisted)) ->
      crowd.scene.cache.entries.find? caller.keyText = none ->
      Enters crowd (.advance index now) caller.call persisted.entry (some persisted.tracked)

theorem Enters.of_computing {crowd : Crowd sigma alpha} {move : Move sigma alpha}
    {call : Call alpha} {entry : CacheEntry alpha} {recorded : Option (List TrackedFile)}
    {ticket : Ticket alpha} {primary : Option TrackedFile}
    (h : crowd.Enters move call entry recorded) (hphase : call.phase = .computing ticket primary) :
    exists (caller : Caller alpha) (computed : Computed alpha), caller ∈ crowd.callers ∧
      caller.call = call ∧ recorded = primary.map fun own =>
        Call.trackedFiles (some own) computed.dependencies := by
  cases h with
  | stored hcaller hother =>
      rw [hother] at hphase
      cases hphase
      exact ⟨_, _, List.mem_of_getElem? hcaller, rfl, rfl⟩
  | restored _ hother _ =>
      rw [hother] at hphase
      cases hphase

theorem Enters.of_none {crowd : Crowd sigma alpha} {move : Move sigma alpha}
    {call : Call alpha} {entry : CacheEntry alpha} (h : crowd.Enters move call entry none) :
    exists caller ticket, caller ∈ crowd.callers ∧ caller.call = call ∧
      call.phase = .computing ticket none := by
  generalize hrecorded : (none : Option (List TrackedFile)) = recorded at h
  cases h with
  | @stored _ _ _ _ ticket primary hcaller hphase =>
      cases primary with
      | none => exact ⟨_, ticket, List.mem_of_getElem? hcaller, rfl, hphase⟩
      | some own => cases hrecorded
  | restored _ _ _ => cases hrecorded

theorem Enters.unique {crowd : Crowd sigma alpha} {move : Move sigma alpha}
    {call other : Call alpha} {entry found : CacheEntry alpha}
    {recorded listed : Option (List TrackedFile)} (h : crowd.Enters move call entry recorded)
    (hother : crowd.Enters move other found listed) : other = call := by
  cases h with
  | stored hcaller _ =>
      cases hother with
      | stored hsame _ =>
          rw [hcaller] at hsame
          cases hsame
          rfl
  | restored hcaller _ _ =>
      cases hother with
      | restored hsame _ _ =>
          rw [hcaller] at hsame
          cases hsame
          rfl

def Spares (crowd : Crowd sigma alpha) (move : Move sigma alpha) (key : String) : Prop :=
  forall call entry recorded, crowd.Enters move call entry recorded -> call.keyText ≠ key

inductive Shift (crowd next : Crowd sigma alpha) (move : Move sigma alpha) (key : String) :
    Prop where
  | kept : crowd.Spares move key ->
      next.scene.cache.entries.find? key = crowd.scene.cache.entries.find? key ->
      ListsRenew (next.scene.cache.records.find? key) (crowd.scene.cache.records.find? key) ->
      Shift crowd next move key
  | dropped : crowd.Spares move key -> next.scene.cache.entries.find? key = none ->
      next.scene.cache.records.find? key = none -> Shift crowd next move key
  | entered (call : Call alpha) (entry : CacheEntry alpha) :
      crowd.Enters move call entry (next.scene.cache.records.find? key) -> call.keyText = key ->
      next.scene.cache.entries.find? key = some entry -> Shift crowd next move key

def Checks (crowd : Crowd sigma alpha) : Prop :=
  forall caller, caller ∈ crowd.callers -> caller.call.Checks crowd.scene.cache

theorem Shift.of_same {crowd next : Crowd sigma alpha} {move : Move sigma alpha} {key : String}
    (hspares : crowd.Spares move key)
    (hentries : next.scene.cache.entries.find? key = crowd.scene.cache.entries.find? key)
    (hrecords : next.scene.cache.records.find? key = crowd.scene.cache.records.find? key) :
    crowd.Shift next move key := by
  refine .kept hspares hentries ?_
  rw [hrecords]
  exact listsRenew_refl _

section Moves

variable {setup : CacheSetup sigma alpha} {crowd : Crowd sigma alpha} {index : Nat}
  {now : UInt64} {caller : Caller alpha}

theorem enters_advance_iff (now : UInt64) (hcaller : crowd.callers[index]? = some caller)
    {call : Call alpha} {entry : CacheEntry alpha} {recorded : Option (List TrackedFile)} :
    crowd.Enters (.advance index now) call entry recorded <->
      call = caller.call ∧ crowd.scene.cache.entries.find? caller.keyText = none ∧
        exists persisted, caller.call.phase = .restoring (.ok (some persisted)) ∧
          entry = persisted.entry ∧ recorded = some persisted.tracked := by
  constructor
  · intro henters
    cases henters with
    | restored hother hphase hentry =>
        rw [hcaller] at hother
        cases hother
        exact ⟨rfl, hentry, _, hphase, rfl, rfl⟩
  · rintro ⟨rfl, hentry, persisted, hphase, rfl, rfl⟩
    exact .restored hcaller hphase hentry

theorem enters_deliver_iff (hcaller : crowd.callers[index]? = some caller) {call : Call alpha}
    {outcome : Except Error (Computed alpha)} {entry : CacheEntry alpha}
    {recorded : Option (List TrackedFile)} :
    crowd.Enters (.deliver index now outcome) call entry recorded <->
      call = caller.call ∧ exists ticket primary computed,
        caller.call.phase = .computing ticket primary ∧ outcome = .ok computed ∧
          entry = (caller.call.keep now crowd.scene.cache primary computed).1.entry ∧
          recorded = primary.map fun own => Call.trackedFiles (some own) computed.dependencies := by
  constructor
  · intro henters
    cases henters with
    | stored hother hphase =>
        rw [hcaller] at hother
        cases hother
        exact ⟨rfl, _, _, _, hphase, rfl, rfl, rfl⟩
  · rintro ⟨rfl, ticket, primary, computed, hphase, rfl, rfl, rfl⟩
    exact .stored hcaller hphase

theorem spares_advance_none (hnone : crowd.callers[index]? = none) (key : String) :
    crowd.Spares (.advance index now) key := by
  intro call entry recorded henters
  cases henters with
  | restored hcaller _ _ =>
      rw [hnone] at hcaller
      cases hcaller

theorem spares_deliver_none (hnone : crowd.callers[index]? = none)
    (outcome : Except Error (Computed alpha)) (key : String) :
    crowd.Spares (.deliver index now outcome) key := by
  intro call entry recorded henters
  cases henters with
  | stored hcaller _ =>
      rw [hnone] at hcaller
      cases hcaller

variable [Disk sigma]

theorem shift_advance (hchecks : crowd.Checks) (index : Nat) (now : UInt64) (key : String) :
    crowd.Shift (crowd.play setup (.advance index now)) (.advance index now) key := by
  rcases play_advance_cases setup crowd index now with
    ⟨hnone, hscene, _⟩ | ⟨caller, after, hcaller, _, hscene, _⟩
  · apply Shift.of_same (spares_advance_none hnone key)
    · rw [hscene]
    · rw [hscene]
  · by_cases hrestores : exists persisted,
        caller.call.phase = .restoring (.ok (some persisted)) ∧
          crowd.scene.cache.entries.find? caller.keyText = none
    · -- the entry that was loaded comes into memory
      rcases hrestores with ⟨persisted, hphase, hentry⟩
      have henters := (enters_advance_iff now hcaller).mpr
        ⟨rfl, hentry, persisted, hphase, rfl, rfl⟩
      have hafter := Call.step_restoring_none setup now hphase hentry
      rw [← hscene] at hafter
      by_cases hkey : key = caller.keyText
      · subst hkey
        apply Shift.entered caller.call persisted.entry
        · rw [hafter.right]
          change crowd.Enters _ _ _ ((Table.insert _ caller.keyText _).find? caller.keyText)
          rw [Table.find?_insert_self]
          exact henters
        · rfl
        · rw [hafter.left]
          exact Table.find?_insert_self ..
      · apply Shift.of_same
        · intro call other recorded hother
          rw [((enters_advance_iff now hcaller).mp hother).left]
          exact Ne.symm hkey
        · rw [hafter.left]
          exact Table.find?_insert_of_ne _ _ hkey
        · rw [hafter.right]
          exact Table.find?_insert_of_ne _ _ hkey
    · have hspares : crowd.Spares (.advance index now) key := by
        intro call entry recorded henters
        rcases (enters_advance_iff now hcaller).mp henters with ⟨_, hentry, persisted, hphase, _⟩
        exact absurd ⟨persisted, hphase, hentry⟩ hrestores
      have hturn := Call.step_turn setup now caller.call crowd.scene
      rw [← hscene] at hturn
      cases hturn with
      | same hentries hrecords =>
          apply Shift.of_same hspares
          · rw [hentries]
          · rw [hrecords]
      | dropped other _ _ hentries hrecords =>
          by_cases hkey : key = other
          · subst hkey
            apply Shift.dropped hspares
            · rw [hentries]
              exact Table.find?_erase_self ..
            · rw [hrecords]
              exact Table.find?_erase_self ..
          · apply Shift.of_same hspares
            · rw [hentries]
              exact Table.find?_erase_of_ne _ hkey
            · rw [hrecords]
              exact Table.find?_erase_of_ne _ hkey
      | restored persisted hphase _ _ =>
          -- there is an entry already, which stays
          cases hentry : crowd.scene.cache.entries.find? caller.keyText with
          | none => exact absurd ⟨persisted, hphase, hentry⟩ hrestores
          | some entry =>
              have hsame := Call.step_restoring_some setup now hphase hentry
              apply Shift.of_same hspares
              · rw [hscene, hsame]
              · rw [hscene, hsame]
      | refreshed entry checked hphase hentries hrecords =>
          refine .kept hspares (by rw [hentries]) ?_
          rw [hrecords]
          by_cases hkey : key = caller.call.keyText
          · have hlist := hchecks caller (List.mem_of_getElem? hcaller)
            unfold Call.Checks at hlist
            rw [hphase] at hlist
            rcases hlist with ⟨listed, hlisted, hfiles⟩
            rw [List.append_nil] at hfiles
            rw [hkey, Table.find?_insert_self, hlisted]
            exact .some hfiles
          · rw [Table.find?_insert_of_ne _ _ hkey]
            exact listsRenew_refl _

theorem shift_deliver (index : Nat) (now : UInt64) (outcome : Except Error (Computed alpha))
    (key : String) :
    crowd.Shift (crowd.play setup (.deliver index now outcome)) (.deliver index now outcome)
      key := by
  rcases play_deliver_eq setup crowd index now outcome with
    ⟨hnone, hscene, _⟩ | ⟨caller, after, hcaller, _, hscene, _⟩
  · apply Shift.of_same (spares_deliver_none hnone outcome key)
    · rw [hscene]
    · rw [hscene]
  · by_cases hstores : exists ticket primary computed,
        caller.call.phase = .computing ticket primary ∧ outcome = .ok computed
    · -- the value that was computed comes into memory
      rcases hstores with ⟨ticket, primary, computed, hphase, rfl⟩
      have hcache := Call.complete_ok now crowd.scene hphase computed
      rw [← hscene] at hcache
      by_cases hkey : key = caller.keyText
      · subst hkey
        have hrecorded :
            (crowd.play setup (.deliver index now (.ok computed))).scene.cache.records.find?
              caller.keyText =
                primary.map fun own => Call.trackedFiles (some own) computed.dependencies := by
          rw [hcache]
          cases primary with
          | none => exact Table.find?_erase_self ..
          | some own => exact Table.find?_insert_self ..
        apply Shift.entered caller.call
        · rw [hrecorded]
          exact .stored hcaller hphase
        · rfl
        · rw [hcache]
          exact Table.find?_insert_self ..
      · apply Shift.of_same
        · intro call entry recorded henters
          rw [((enters_deliver_iff hcaller).mp henters).left]
          exact Ne.symm hkey
        · rw [hscene]
          exact (Call.complete_keeps now crowd.scene _ hkey).left
        · rw [hscene]
          exact (Call.complete_keeps now crowd.scene _ hkey).right
    · have hsame : (caller.call.complete now crowd.scene outcome).2.cache.entries =
            crowd.scene.cache.entries ∧
          (caller.call.complete now crowd.scene outcome).2.cache.records =
            crowd.scene.cache.records := by
        unfold Call.complete
        split
        · rename_i ticket primary hphase
          cases outcome with
          | error cause => exact ⟨rfl, rfl⟩
          | ok computed => exact absurd ⟨ticket, primary, computed, hphase, rfl⟩ hstores
        · exact ⟨rfl, rfl⟩
      apply Shift.of_same
      · intro call entry recorded henters
        rcases (enters_deliver_iff hcaller).mp henters with
          ⟨_, ticket, primary, computed, hphase, houtcome, _⟩
        exact absurd ⟨ticket, primary, computed, hphase, houtcome⟩ hstores
      · rw [hscene, hsame.left]
      · rw [hscene, hsame.right]

theorem shift_invalidate (other : CacheKey) (key : String) :
    crowd.Shift (crowd.play setup (.invalidate other)) (.invalidate other) key := by
  have hspares : crowd.Spares (.invalidate other) key := by
    intro call entry recorded henters
    cases henters
  have hcontents := Call.invalidate_contents setup crowd.scene other
  change (crowd.play setup (.invalidate other)).scene.cache.entries = _ ∧
    (crowd.play setup (.invalidate other)).scene.cache.records = _ at hcontents
  by_cases hkey : key = other.text
  · apply Shift.dropped hspares
    · rw [hcontents.left, hkey]
      exact Table.find?_erase_self ..
    · rw [hcontents.right, hkey]
      exact Table.find?_erase_self ..
  · apply Shift.of_same hspares
    · rw [hcontents.left]
      exact Table.find?_erase_of_ne _ hkey
    · rw [hcontents.right]
      exact Table.find?_erase_of_ne _ hkey

theorem play_shift (hchecks : crowd.Checks) (move : Move sigma alpha) (key : String) :
    crowd.Shift (crowd.play setup move) move key := by
  cases move with
  | start other options =>
      apply Shift.of_same
      · intro call entry recorded henters
        cases henters
      · rfl
      · rfl
  | advance index now => exact shift_advance hchecks index now key
  | deliver index now outcome => exact shift_deliver index now outcome key
  | invalidate other => exact shift_invalidate other key
  | clear =>
      apply Shift.dropped
      · intro call entry recorded henters
        cases henters
      · rfl
      · rfl
  | disturb disk =>
      apply Shift.of_same
      · intro call entry recorded henters
        cases henters
      · rfl
      · rfl

theorem Checks.play (h : crowd.Checks) {move : Move sigma alpha}
    (hmove : crowd.Uninterrupted Phase.isChecking move) : (crowd.play setup move).Checks := by
  have hidle : forall caller : Caller alpha, caller.call.phase.isChecking = false ->
      caller.call.Checks (crowd.play setup move).scene.cache :=
    fun caller hphase => Call.checks_of_not_checking hphase _
  cases move with
  | start other options =>
      intro caller hmem
      rcases List.mem_append.mp hmem with hold | hnew
      · exact h caller hold
      · rw [List.mem_singleton.mp hnew]
        exact trivial
  | advance index now =>
      rcases play_advance_cases setup crowd index now with
        ⟨_, hscene, hcallers⟩ | ⟨caller, after, hcaller, hafter, hscene, hcallers⟩
      · intro other hmem
        rw [hcallers] at hmem
        rw [hscene]
        exact h other hmem
      · intro other hmem
        rw [hcallers] at hmem
        obtain ⟨place, hplace⟩ := List.mem_iff_getElem?.mp hmem
        rcases getElem?_set_cases hplace with ⟨_, hsame⟩ | ⟨hne, hold⟩
        · rw [hsame, hafter, hscene]
          exact Call.step_checks (h caller (List.mem_of_getElem? hcaller))
        · exact hidle other (hmove.elsewhere hold hne)
  | deliver index now outcome =>
      rcases play_deliver_cases setup crowd index now outcome with
        ⟨_, hcallers⟩ | ⟨caller, after, ticket, primary, _, hphase, hafter, _, hcallers⟩
      · intro other hmem
        rw [hcallers] at hmem
        exact hidle other (hmove other hmem)
      · intro other hmem
        rw [hcallers] at hmem
        rcases List.mem_or_eq_of_mem_set hmem with hold | hnew
        · exact hidle other (hmove other hold)
        · apply hidle
          rw [hnew, hafter]
          unfold Call.complete
          rw [hphase]
          cases outcome <;> rfl
  | invalidate other => exact fun caller hmem => hidle caller (hmove caller hmem)
  | clear => exact fun caller hmem => hidle caller (hmove caller hmem)
  | disturb disk => exact h

end Moves

end Crowd
end LessonPress

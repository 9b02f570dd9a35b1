import LessonPress.Embed.Drift
import Mathlib.Data.List.Dedup
import Mathlib.Data.List.Induction

/-!
# The history of an embed

## How a content is judged by what has been observed of its embed before

The observations of one identity make up a history of their own, in which no other identity has
a say.  A content that is not the last one is a change, and a change is drift unless it undoes
the last change, which was drift itself.  The record of an identity holds the last content of
its history, and the content in front of the last change for as long as that change is drift.
-/

namespace LessonPress

structure Observation where
  identity : ContentHash
  content : ContentHash
  status : DriftStatus
deriving DecidableEq

namespace DriftLedger

def observeAll (ledger : DriftLedger) :
    List (ContentHash × ContentHash) -> List Observation × DriftLedger
  | [] => ([], ledger)
  | (identity, content) :: rest =>
      let (status, next) := ledger.observe identity content
      let (later, last) := observeAll next rest
      (⟨identity, content, status⟩ :: later, last)

def history (identity : ContentHash) (log : List Observation) : List Observation :=
  log.filter fun note => note.identity = identity

/-!
# Changes
-/

def Repeats (past : List Observation) (content : ContentHash) : Prop :=
  exists last, past.getLast? = some last ∧ last.content = content

def Changes (past : List Observation) (content : ContentHash) : Prop :=
  exists last, past.getLast? = some last ∧ last.content ≠ content

/-- What the content was in front of the last change, and what was said of that change. -/
def LastChange (past : List Observation) (before : ContentHash) (status : DriftStatus) : Prop :=
  exists earlier old new repeats, past = earlier ++ old :: new :: repeats ∧
    old.content = before ∧ new.content ≠ before ∧
    (forall note, note ∈ repeats -> note.content = new.content) ∧ new.status = status

structure Judged (past : List Observation) (content : ContentHash) (status : DriftStatus) :
    Prop where
  fresh : status = .fresh <-> past = []
  unchanged : status = .unchanged <-> Repeats past content
  resolved : status = .resolved <-> Changes past content ∧ LastChange past content .drifted
  drifted : status = .drifted <-> Changes past content ∧ ¬ LastChange past content .drifted

structure Recorded (past : List Observation) (record : Option DriftRecord) : Prop where
  exists_iff : record.isSome = true <-> past ≠ []
  last : forall known, record = some known -> Repeats past known.last
  baseline : forall known before, record = some known ->
    (known.baseline = some before <-> LastChange past before .drifted)
  differs : forall known before, record = some known -> known.baseline = some before ->
    before ≠ known.last

theorem not_lastChange_singleton (note : Observation) (before : ContentHash)
    (status : DriftStatus) : ¬ LastChange [note] before status := by
  rintro ⟨earlier, old, new, repeats, hpast, _⟩
  have hlength := congrArg List.length hpast
  simp at hlength
  omega

theorem concat_cases {past earlier repeats : List Observation} {note old new : Observation}
    (h : past ++ [note] = earlier ++ old :: new :: repeats) :
    (repeats = [] ∧ past = earlier ++ [old] ∧ note = new) ∨
      exists others, repeats = others ++ [note] ∧ past = earlier ++ old :: new :: others := by
  rcases List.eq_nil_or_concat repeats with rfl | ⟨others, final, rfl⟩
  · have hends : past ++ [note] = (earlier ++ [old]) ++ [new] := by
      rw [h, List.append_assoc, List.singleton_append]
    rcases List.append_inj' hends rfl with ⟨hpast, hnote⟩
    exact Or.inl ⟨rfl, hpast, List.singleton_inj.mp hnote⟩
  · have hends : past ++ [note] = (earlier ++ old :: new :: others) ++ [final] := by
      rw [h, List.append_assoc, List.cons_append, List.cons_append, List.concat_eq_append]
    rcases List.append_inj' hends rfl with ⟨hpast, hnote⟩
    refine Or.inr ⟨others, ?_, hpast⟩
    rw [List.concat_eq_append, hnote]

theorem content_of_getLast? {earlier repeats : List Observation} {old new last : Observation}
    (hrepeats : forall note, note ∈ repeats -> note.content = new.content)
    (hlast : (earlier ++ old :: new :: repeats).getLast? = some last) :
    last.content = new.content := by
  rw [List.getLast?_append_of_ne_nil _ (List.cons_ne_nil _ _), List.getLast?_cons_cons] at hlast
  cases List.mem_cons.mp (List.mem_of_getLast? hlast) with
  | inl hown => rw [hown]
  | inr hlater => exact hrepeats last hlater

section Concat

variable {past : List Observation} {last note : Observation}

theorem lastChange_concat_repeated (hlast : past.getLast? = some last)
    (hsame : note.content = last.content) (before : ContentHash) (status : DriftStatus) :
    LastChange (past ++ [note]) before status <-> LastChange past before status := by
  constructor
  · rintro ⟨earlier, old, new, repeats, hpast, hold, hnew, hrepeats, hstatus⟩
    rcases concat_cases hpast with ⟨_, hfront, rfl⟩ | ⟨others, rfl, hfront⟩
    · rw [hfront, List.getLast?_concat] at hlast
      rw [← Option.some.inj hlast, hold] at hsame
      exact absurd hsame hnew
    · exact ⟨earlier, old, new, others, hfront, hold, hnew,
        fun other hother => hrepeats other (List.mem_append_left _ hother), hstatus⟩
  · rintro ⟨earlier, old, new, repeats, rfl, hold, hnew, hrepeats, hstatus⟩
    have hcontent := content_of_getLast? hrepeats hlast
    refine ⟨earlier, old, new, repeats ++ [note], ?_, hold, hnew, fun other hother => ?_, hstatus⟩
    · rw [List.append_assoc, List.cons_append, List.cons_append]
    · cases List.mem_append.mp hother with
      | inl hearlier => exact hrepeats other hearlier
      | inr hown => rw [List.mem_singleton.mp hown, hsame, hcontent]

theorem lastChange_concat_changed (hlast : past.getLast? = some last)
    (hother : note.content ≠ last.content) (before : ContentHash) (status : DriftStatus) :
    LastChange (past ++ [note]) before status <-> last.content = before ∧ note.status = status := by
  constructor
  · rintro ⟨earlier, old, new, repeats, hpast, hold, hnew, hrepeats, hstatus⟩
    rcases concat_cases hpast with ⟨_, hfront, rfl⟩ | ⟨others, rfl, rfl⟩
    · rw [hfront, List.getLast?_concat] at hlast
      rw [← Option.some.inj hlast]
      exact ⟨hold, hstatus⟩
    · -- the note would repeat the content in front of it
      have hcontent := content_of_getLast?
        (fun other hmem => hrepeats other (List.mem_append_left _ hmem)) hlast
      have hnote := hrepeats note (List.mem_append_right _ (List.mem_singleton_self note))
      exact absurd (hnote.trans hcontent.symm) hother
  · rintro ⟨hbefore, hstatus⟩
    rcases List.getLast?_eq_some_iff.mp hlast with ⟨earlier, rfl⟩
    refine ⟨earlier, last, note, [], ?_, hbefore, ?_, nofun, hstatus⟩
    · rw [List.append_assoc, List.singleton_append]
    · rw [← hbefore]
      exact hother

end Concat

theorem LastChange.ne_last {past : List Observation} {before : ContentHash} {status : DriftStatus}
    (h : LastChange past before status) {last : Observation} (hlast : past.getLast? = some last) :
    before ≠ last.content := by
  rcases h with ⟨earlier, old, new, repeats, rfl, hold, hnew, hrepeats, hstatus⟩
  rw [content_of_getLast? hrepeats hlast]
  exact hnew.symm

/-!
# One observation
-/

theorem repeats_iff {past : List Observation} {last : Observation}
    (h : past.getLast? = some last) (content : ContentHash) :
    Repeats past content <-> last.content = content := by
  unfold Repeats
  rw [h]
  simp

theorem changes_iff {past : List Observation} {last : Observation}
    (h : past.getLast? = some last) (content : ContentHash) :
    Changes past content <-> last.content ≠ content := by
  unfold Changes
  rw [h]
  simp

/-- After an observation the last content is there, and the baseline is that of the last change
if it was drift. -/
theorem recorded_concat {past : List Observation} {note : Observation}
    {baseline : Option ContentHash}
    (h : forall before, baseline = some before <-> LastChange (past ++ [note]) before .drifted) :
    Recorded (past ++ [note]) (some ⟨note.content, baseline⟩) := by
  have hlast : (past ++ [note]).getLast? = some note := List.getLast?_concat
  constructor
  case exists_iff => simp
  case last =>
    intro known hknown
    rw [← Option.some.inj hknown, repeats_iff hlast]
  case baseline =>
    intro known before hknown
    rw [← Option.some.inj hknown]
    exact h before
  case differs =>
    intro known before hknown hbefore
    rw [← Option.some.inj hknown] at hbefore ⊢
    exact ((h before).mp hbefore).ne_last hlast

theorem judged_first (content : ContentHash) : Judged [] content .fresh := by
  constructor <;> simp [Repeats, Changes]

section Later

variable {past : List Observation} {last : Observation} {content : ContentHash}

theorem judged_repeated (hlast : past.getLast? = some last) (hsame : last.content = content) :
    Judged past content .unchanged := by
  have hsome := List.ne_nil_of_mem (List.mem_of_getLast? hlast)
  constructor <;> simp [hsome, repeats_iff hlast, changes_iff hlast, hsame]

theorem judged_undone (hlast : past.getLast? = some last) (hother : last.content ≠ content)
    (hchange : LastChange past content .drifted) : Judged past content .resolved := by
  have hsome := List.ne_nil_of_mem (List.mem_of_getLast? hlast)
  constructor <;> simp [hsome, repeats_iff hlast, changes_iff hlast, hother, hchange]

theorem judged_drifted (hlast : past.getLast? = some last) (hother : last.content ≠ content)
    (hchange : ¬ LastChange past content .drifted) : Judged past content .drifted := by
  have hsome := List.ne_nil_of_mem (List.mem_of_getLast? hlast)
  constructor <;> simp [hsome, repeats_iff hlast, changes_iff hlast, hother, hchange]

end Later

theorem judge_of_recorded {past : List Observation} {record : Option DriftRecord}
    (h : Recorded past record) (identity content : ContentHash) :
    Judged past content (judge record content).1 ∧
      Recorded (past ++ [⟨identity, content, (judge record content).1⟩])
        (some (judge record content).2) := by
  cases record with
  | none =>
      have hpast : past = [] := by
        have hnone := h.exists_iff
        simpa using hnone
      rw [hpast]
      refine ⟨judged_first content, recorded_concat fun before => ?_⟩
      have hchange := not_lastChange_singleton ⟨identity, content, .fresh⟩ before .drifted
      constructor
      · nofun
      · exact fun hlast => absurd hlast hchange
  | some known =>
      rcases h.last known rfl with ⟨last, hlast, hknown⟩
      by_cases hresolved : known.baseline = some content
      · have hchange := (h.baseline known content rfl).mp hresolved
        have hother := (hchange.ne_last hlast).symm
        have hjudge : judge (some known) content = (.resolved, ⟨content, none⟩) := if_pos hresolved
        rw [hjudge]
        refine ⟨judged_undone hlast hother hchange, recorded_concat fun before => ?_⟩
        rw [lastChange_concat_changed hlast hother.symm]
        constructor
        · nofun
        · exact fun hdrifted => nomatch hdrifted.right
      · have hchange : ¬ LastChange past content .drifted := fun hchange =>
          hresolved ((h.baseline known content rfl).mpr hchange)
        by_cases hsame : known.last = content
        · have hjudge : judge (some known) content = (.unchanged, ⟨content, known.baseline⟩) :=
            (if_neg hresolved).trans (if_neg (not_not_intro hsame))
          rw [hjudge]
          refine ⟨judged_repeated hlast (hknown.trans hsame), recorded_concat fun before => ?_⟩
          rw [lastChange_concat_repeated hlast (hknown.trans hsame).symm]
          exact h.baseline known before rfl
        · have hjudge : judge (some known) content = (.drifted, ⟨content, some known.last⟩) :=
            (if_neg hresolved).trans (if_pos hsame)
          have hother : last.content ≠ content := by
            rw [hknown]
            exact hsame
          rw [hjudge]
          refine ⟨judged_drifted hlast hother hchange, recorded_concat fun before => ?_⟩
          rw [lastChange_concat_changed hlast hother.symm, hknown, Option.some.injEq]
          exact ⟨fun hbefore => ⟨hbefore, rfl⟩, fun hdrifted => hdrifted.left⟩

/-!
# All observations
-/

theorem find?_observe_self (ledger : DriftLedger) (identity content : ContentHash) :
    (ledger.observe identity content).2.find? identity =
      some (judge (ledger.find? identity) content).2 :=
  Table.find?_insert_self _ _ _

theorem find?_observe_of_ne (ledger : DriftLedger) {identity other : ContentHash}
    (content : ContentHash) (h : other ≠ identity) :
    (ledger.observe identity content).2.find? other = ledger.find? other :=
  Table.find?_insert_of_ne _ _ h

theorem observeAll_cons (ledger : DriftLedger) (identity content : ContentHash)
    (rest : List (ContentHash × ContentHash)) :
    observeAll ledger ((identity, content) :: rest) =
      (⟨identity, content, (ledger.observe identity content).1⟩ ::
          (observeAll (ledger.observe identity content).2 rest).1,
        (observeAll (ledger.observe identity content).2 rest).2) :=
  rfl

theorem observeAll_concat (ledger : DriftLedger) (calls : List (ContentHash × ContentHash))
    (identity content : ContentHash) :
    observeAll ledger (calls ++ [(identity, content)]) =
      ((observeAll ledger calls).1 ++ [⟨identity, content,
          (judge ((observeAll ledger calls).2.find? identity) content).1⟩],
        ((observeAll ledger calls).2.observe identity content).2) := by
  induction calls generalizing ledger with
  | nil => rfl
  | cons call rest ih =>
      rw [List.cons_append, observeAll_cons, ih, observeAll_cons]
      rfl

theorem history_concat_self (log : List Observation) (note : Observation) :
    history note.identity (log ++ [note]) = history note.identity log ++ [note] := by
  unfold history
  rw [List.filter_append]
  simp

theorem history_concat_of_ne (log : List Observation) {note : Observation} {identity : ContentHash}
    (h : note.identity ≠ identity) : history identity (log ++ [note]) = history identity log := by
  unfold history
  rw [List.filter_append]
  simp [h]

theorem recorded_observeAll (calls : List (ContentHash × ContentHash)) (identity : ContentHash) :
    Recorded (history identity (observeAll .empty calls).1)
      ((observeAll .empty calls).2.find? identity) := by
  induction calls using List.reverseRecOn with
  | nil => exact ⟨by simp [observeAll, history], nofun, nofun, nofun⟩
  | append_singleton calls call ih =>
      rcases call with ⟨current, content⟩
      rw [observeAll_concat]
      dsimp only
      by_cases hcurrent : current = identity
      · rw [hcurrent, find?_observe_self, history_concat_self _ ⟨identity, content, _⟩]
        exact (judge_of_recorded ih identity content).right
      · rw [find?_observe_of_ne _ _ (Ne.symm hcurrent), history_concat_of_ne _ hcurrent]
        exact ih

/-- Every verdict follows from the history in front of it. -/
theorem judged_observeAll (calls : List (ContentHash × ContentHash)) {front rest : List Observation}
    {note : Observation} (h : (observeAll .empty calls).1 = front ++ note :: rest) :
    Judged (history note.identity front) note.content note.status := by
  induction calls using List.reverseRecOn generalizing rest with
  | nil =>
      have hlength := congrArg List.length h
      simp [observeAll] at hlength
  | append_singleton calls call ih =>
      rcases call with ⟨identity, content⟩
      rw [observeAll_concat] at h
      rcases List.eq_nil_or_concat rest with rfl | ⟨others, final, rfl⟩
      · rcases List.append_inj' h rfl with ⟨hfront, hnote⟩
        rw [← hfront, ← List.singleton_inj.mp hnote]
        exact (judge_of_recorded (recorded_observeAll calls identity) identity content).left
      · rw [List.concat_eq_append, ← List.cons_append, ← List.append_assoc] at h
        exact ih (List.append_inj' h rfl).left

theorem logged_observeAll (ledger : DriftLedger) (calls : List (ContentHash × ContentHash)) :
    (observeAll ledger calls).1.map (fun note => (note.identity, note.content)) = calls := by
  induction calls generalizing ledger with
  | nil => rfl
  | cons call rest ih =>
      rcases call with ⟨identity, content⟩
      rw [observeAll_cons, List.map_cons, ih]

/-- The calls of an identity come out, and leave it recorded, as they do by themselves. -/
theorem alone_observeAll (calls : List (ContentHash × ContentHash)) (identity : ContentHash) :
    history identity (observeAll .empty calls).1 =
        (observeAll .empty (calls.filter fun call => call.1 = identity)).1 ∧
      (observeAll .empty calls).2.find? identity =
        (observeAll .empty (calls.filter fun call => call.1 = identity)).2.find? identity := by
  induction calls using List.reverseRecOn with
  | nil => exact ⟨rfl, rfl⟩
  | append_singleton calls call ih =>
      rcases call with ⟨current, content⟩
      rw [observeAll_concat, List.filter_append]
      dsimp only
      by_cases hcurrent : current = identity
      · rw [hcurrent, history_concat_self _ ⟨identity, content, _⟩, find?_observe_self, ih.left,
          ih.right, List.filter_cons_of_pos (by simp), List.filter_nil, observeAll_concat,
          find?_observe_self]
        exact ⟨rfl, rfl⟩
      · rw [history_concat_of_ne _ hcurrent, find?_observe_of_ne _ _ (Ne.symm hcurrent),
          List.filter_cons_of_neg (by simpa using hcurrent), List.filter_nil, List.append_nil]
        exact ih

theorem nodup_keys_observeAll (calls : List (ContentHash × ContentHash)) :
    (observeAll .empty calls).2.keys.Nodup := by
  induction calls using List.reverseRecOn with
  | nil => exact .nil
  | append_singleton calls call ih =>
      rw [observeAll_concat]
      exact Table.nodup_keys_insert ih _ _

theorem mem_keys_observeAll (calls : List (ContentHash × ContentHash)) (identity : ContentHash) :
    identity ∈ (observeAll .empty calls).2.keys <-> identity ∈ calls.map Prod.fst := by
  rw [Table.mem_keys_iff, (recorded_observeAll calls identity).exists_iff]
  conv_rhs => rw [← logged_observeAll .empty calls]
  simp [history]

/-- What the observations of a run come to: the log lists the calls with the verdicts on them,
and the history of each identity decides the verdicts on its calls and the record of it.  No
call of another identity has a say, and only what was observed has a record. -/
structure Accounted (calls : List (ContentHash × ContentHash)) (log : List Observation)
    (ledger : DriftLedger) : Prop where
  logged : log.map (fun note => (note.identity, note.content)) = calls
  judged : forall front note rest, log = front ++ note :: rest ->
    Judged (history note.identity front) note.content note.status
  recorded : forall identity, Recorded (history identity log) (ledger.find? identity)
  alone : forall identity, history identity log =
    (observeAll .empty (calls.filter fun call => call.1 = identity)).1
  observed : forall identity,
    (ledger.find? identity).isSome = true <-> identity ∈ calls.map Prod.fst
  size : ledger.size = (calls.map Prod.fst).dedup.length

/-- The verdicts of any sequence of calls, and the records that it leaves, are those of the
histories of its identities. -/
theorem observeAll_accounted (calls : List (ContentHash × ContentHash)) :
    Accounted calls (observeAll .empty calls).1 (observeAll .empty calls).2 := by
  constructor
  case logged => exact logged_observeAll .empty calls
  case judged => exact fun _ _ _ hlog => judged_observeAll calls hlog
  case recorded => exact recorded_observeAll calls
  case alone => exact fun identity => (alone_observeAll calls identity).left
  case observed =>
    intro identity
    rw [← Table.mem_keys_iff, mem_keys_observeAll]
  case size =>
    have hperm : ((observeAll .empty calls).2.keys).Perm (calls.map Prod.fst).dedup := by
      rw [List.perm_ext_iff_of_nodup (nodup_keys_observeAll calls) (List.nodup_dedup _)]
      intro identity
      rw [mem_keys_observeAll, List.mem_dedup]
    rw [← Table.length_keys, hperm.length_eq]

/-- Going back and forth is drift each time that no warning is outstanding. -/
example : ((observeAll .empty [(⟨"e"⟩, ⟨"a"⟩), (⟨"e"⟩, ⟨"b"⟩), (⟨"e"⟩, ⟨"a"⟩), (⟨"e"⟩, ⟨"b"⟩),
    (⟨"e"⟩, ⟨"c"⟩), (⟨"e"⟩, ⟨"b"⟩)]).1.map Observation.status) =
    [.fresh, .drifted, .resolved, .drifted, .drifted, .resolved] := by
  decide

end DriftLedger
end LessonPress

import LessonPress.Proofs.Binary64.Rounding
import LessonPress.Proofs.Fingerprint.Checks

/-!
# Changes that a check detects

## Times as they are and as they are counted

The milliseconds of a time are the result of four roundings.  Up to the year 70000 they
lie within half a millisecond of the time itself, so times that are a millisecond apart
stay apart.  All times before 1970 count as its start, though, and a file that goes from
one of them to another shows nothing but its size.
-/

namespace LessonPress

namespace Timestamp

def exactMillis (time : Timestamp) : Rat :=
  (time.seconds + time.nanos / 1000000000) * 1000

/-- The milliseconds where a time before 1970 counts as the start of 1970. -/
def counted (time : Timestamp) : Rat :=
  max time.exactMillis 0

theorem counted_of_late {time : Timestamp} (h : 0 ≤ time.seconds) :
    time.counted = time.exactMillis := by
  have hseconds : (0 : Rat) ≤ time.seconds := by exact_mod_cast h
  unfold counted exactMillis
  apply max_eq_left
  positivity

/-- The time is not too far away, and its nanoseconds do not make up a second. -/
structure Ordinary (time : Timestamp) : Prop where
  seconds : time.seconds < 2 ^ 41
  nanos : time.nanos < 1000000000

theorem millis_of_early {time : Timestamp} (h : time.seconds < 0) :
    time.millis = .zero false := by
  rcases time with ⟨seconds, nanos⟩
  cases seconds with
  | ofNat seconds => exact absurd h (by simp)
  | negSucc seconds => rfl

section Errors

variable {seconds nanos : Nat}

def rounded (seconds nanos : Nat) : Binary64 :=
  (Binary64.ofNat seconds).add ((Binary64.ofNat nanos).div billion)

theorem fraction_bounds (hnanos : nanos < 1000000000) :
    (0 : Rat) ≤ nanos / 1000000000 ∧ (nanos : Rat) / 1000000000 ≤ 1 := by
  constructor
  · positivity
  · rw [div_le_one (by norm_num)]
    exact_mod_cast hnanos.le

theorem fraction_error (hnanos : nanos < 1000000000) :
    |((Binary64.ofNat nanos).div billion).value - nanos / 1000000000| ≤ 2 / 2 ^ 53 := by
  have hvalue : (Binary64.ofNat nanos).value = nanos := Binary64.value_ofNat (by omega)
  have hbillion : billion.value = 1000000000 := Binary64.value_ofNat (by omega)
  have hrounds := Binary64.rounds_div (Binary64.ofNat nanos) billion (by simp [hbillion])
  rw [hvalue, hbillion] at hrounds
  obtain ⟨hnonneg, hsmall⟩ := fraction_bounds hnanos
  have herror := hrounds.error_le 1 (by rwa [abs_of_nonneg hnonneg])
  linarith

theorem rounded_error (hseconds : seconds < 2 ^ 41) (hnanos : nanos < 1000000000) :
    |(rounded seconds nanos).value - (seconds + nanos / 1000000000)| ≤
      (2 ^ 41 + 4) / 2 ^ 53 := by
  have hvalue : (Binary64.ofNat seconds).value = seconds := Binary64.value_ofNat (by omega)
  have hfraction := abs_le.mp (fraction_error hnanos)
  have hrounds := Binary64.rounds_add (Binary64.ofNat seconds) ((Binary64.ofNat nanos).div billion)
  rw [hvalue] at hrounds
  obtain ⟨hnonneg, hsmall⟩ := fraction_bounds hnanos
  have hpositive : (0 : Rat) ≤ seconds := by positivity
  have hlimit : (seconds : Rat) + 1 ≤ 2 ^ 41 := by exact_mod_cast hseconds
  have herror := abs_le.mp (hrounds.error_le (2 ^ 41 + 1) (by
    rw [abs_le]
    constructor <;> linarith))
  unfold rounded
  rw [abs_le]
  constructor <;> linarith

end Errors

theorem Ordinary.counted_of_early {time : Timestamp} (h : time.Ordinary)
    (hearly : time.seconds < 0) : time.counted = 0 := by
  have hseconds : (time.seconds : Rat) ≤ -1 := by exact_mod_cast Int.le_sub_one_of_lt hearly
  have hfraction := (fraction_bounds h.nanos).right
  unfold counted exactMillis
  apply max_eq_right
  linarith

/-- One rounding makes the fraction of a second, one the sum, and one the product. -/
theorem Ordinary.millis_error {time : Timestamp} (h : time.Ordinary) :
    |time.millis.value - time.counted| ≤ 49 / 100 := by
  rcases lt_or_ge time.seconds 0 with hearly | hlate
  · rw [millis_of_early hearly, h.counted_of_early hearly, Binary64.value_zero]
    norm_num
  · rcases time with ⟨seconds, nanos⟩
    obtain ⟨whole, rfl⟩ := Int.eq_ofNat_of_zero_le hlate
    have hseconds : (whole : Int) < 2 ^ 41 := h.seconds
    have hwhole : whole < 2 ^ 41 := by omega
    have hnanos : nanos < 1000000000 := h.nanos
    have hthousand : thousand.value = 1000 := Binary64.value_ofNat (by omega)
    have hsum := abs_le.mp (rounded_error hwhole hnanos)
    have hrounds := Binary64.rounds_mul (rounded whole nanos) thousand
    have hmillis : (⟨Int.ofNat whole, nanos⟩ : Timestamp).millis =
        (rounded whole nanos).mul thousand := rfl
    obtain ⟨hnonneg, hsmall⟩ := fraction_bounds hnanos
    have hpositive : (0 : Rat) ≤ whole := by positivity
    have hlimit : (whole : Rat) + 1 ≤ 2 ^ 41 := by exact_mod_cast hwhole
    have hcounted : (⟨Int.ofNat whole, nanos⟩ : Timestamp).counted =
        (whole + nanos / 1000000000) * 1000 := counted_of_late hlate
    rw [hthousand] at hrounds
    have herror := abs_le.mp (hrounds.error_le ((2 ^ 41 + 1) * 1000) (by
      rw [abs_le]
      constructor <;> linarith))
    have hgoal : |(⟨Int.ofNat whole, nanos⟩ : Timestamp).millis.value -
        (⟨Int.ofNat whole, nanos⟩ : Timestamp).counted| ≤ 49 / 100 := by
      rw [hmillis, hcounted, abs_le]
      constructor <;> linarith
    exact hgoal

end Timestamp

/-!
# Fingerprints that agree
-/

namespace Fingerprint

theorem read_eq_ok {fs : FileSystem} {path : FilePath} {fingerprint : Fingerprint}
    (h : Fingerprint.read fs path = .ok fingerprint) :
    exists metadata, fs.stat path = .ok metadata ∧ fingerprint = ofMetadata path metadata := by
  unfold Fingerprint.read at h
  cases hstat : fs.stat path with
  | error cause =>
      rw [hstat] at h
      cases h
  | ok metadata =>
      rw [hstat] at h
      cases h
      exact ⟨metadata, rfl, rfl⟩

theorem tolerance_le : tolerance.value ≤ 1 / 500 := by
  have hone : (Binary64.ofNat 1).value = 1 := Binary64.value_ofNat (by omega)
  have hthousand : (Binary64.ofNat 1000).value = 1000 := Binary64.value_ofNat (by omega)
  have hrounds := Binary64.rounds_div (.ofNat 1) (.ofNat 1000) (by simp [hthousand])
  rw [hone, hthousand] at hrounds
  have herror := abs_le.mp (hrounds.error_le 1 (by norm_num [abs_le]))
  unfold tolerance
  linarith

variable {path : FilePath} {before after : FileSystem.Metadata}

/-- A millisecond is more than the roundings can hide. -/
theorem disagree_of_apart (hbefore : before.modified.Ordinary) (hafter : after.modified.Ordinary)
    (hapart : 1 ≤ |after.modified.counted - before.modified.counted|) :
    (ofMetadata path after).agrees (ofMetadata path before) = false := by
  have hfirst := abs_le.mp hbefore.millis_error
  have hsecond := abs_le.mp hafter.millis_error
  have hrounds := Binary64.rounds_sub after.modified.millis before.modified.millis
  generalize hdifference :
    after.modified.millis.value - before.modified.millis.value = difference at hrounds
  have hsize : 1 / 50 ≤ |difference| := by
    rw [← hdifference]
    rcases le_abs.mp hapart with hlater | hearlier
    · exact le_abs.mpr (.inl (by linarith))
    · exact le_abs.mpr (.inr (by linarith))
  have herror := hrounds.error_le _ le_rfl
  have htriangle := abs_sub_abs_le_abs_sub difference
    (after.modified.millis.sub before.modified.millis).value
  rw [abs_sub_comm] at htriangle
  have hlarge : 1 / 100 ≤ (after.modified.millis.sub before.modified.millis).abs.value := by
    rw [Binary64.value_abs]
    linarith
  have htolerance := tolerance_le
  have hle : (after.modified.millis.sub before.modified.millis).abs.le tolerance = false := by
    rw [Bool.eq_false_iff]
    intro hle
    have hvalue := (Binary64.le_iff _ _).mp hle
    linarith
  unfold agrees ofMetadata
  dsimp only
  rw [hle, Bool.and_false]

theorem disagree_of_sizes (hsize : before.size ≠ after.size) :
    (ofMetadata path after).agrees (ofMetadata path before) = false := by
  unfold agrees ofMetadata
  simp [hsize.symm]

/-- Before 1970 one time is like another. -/
theorem agree_of_early (hsize : before.size = after.size) (hbefore : before.modified.seconds < 0)
    (hafter : after.modified.seconds < 0) :
    (ofMetadata path after).agrees (ofMetadata path before) = true := by
  have hsame : ofMetadata path after = ofMetadata path before := by
    unfold ofMetadata
    rw [hsize, Timestamp.millis_of_early hbefore, Timestamp.millis_of_early hafter]
  rw [hsame]
  exact agrees_self _

end Fingerprint

/-!
# Files as they were recorded
-/

namespace TrackedFile

inductive Made (past : FileSystem) : TrackedFile -> Prop where
  | captured {path : FilePath} {file : TrackedFile} {bytes : ByteArray}
      (hcapture : capture past path = .ok (file, bytes)) : Made past file
  | absent {path : FilePath} (hgone : (past.stat path).isOk = false) : Made past (absent path)

def Intact (past now : FileSystem) (file : TrackedFile) : Prop :=
  if file.missing then (now.stat file.path).isOk = false
  else now.read file.path = past.read file.path

def Alike (past now : FileSystem) (file : TrackedFile) : Prop :=
  file.missing = false ∧ exists before after,
    past.stat file.path = .ok before ∧ now.stat file.path = .ok after ∧
      (Fingerprint.ofMetadata file.path after).agrees (.ofMetadata file.path before) = true

def Telling (past now : FileSystem) (file : TrackedFile) : Prop :=
  forall old new, past.read file.path = .ok old -> now.read file.path = .ok new ->
    ContentHash.of old = ContentHash.of new -> old = new

variable {past now : FileSystem} {file : TrackedFile}

theorem passes_iff_of_capture {path : FilePath} {bytes : ByteArray}
    (hcapture : capture past path = .ok (file, bytes)) (htelling : file.Telling past now) :
    file.probe now ≠ .changed <-> file.Intact past now ∨ file.Alike past now := by
  rcases capture_eq_ok hcapture with ⟨fingerprint, hfingerprint, hbytes, rfl⟩
  rcases Fingerprint.read_eq_ok hfingerprint with ⟨before, hbefore, rfl⟩
  rw [passes_iff_kept]
  constructor
  · intro h
    rcases h with ⟨renewed, hkept⟩
    cases hkept with
    | missing hmissing hgone => cases hmissing
    | agreeing hmissing hcurrent hagrees =>
        rcases Fingerprint.read_eq_ok hcurrent with ⟨after, hafter, rfl⟩
        exact .inr ⟨rfl, before, after, hbefore, hafter, hagrees⟩
    | moved hmissing hcurrent hmoved hfound hhash =>
        left
        have hsame := htelling _ _ hbytes hfound hhash.symm
        rw [← hsame] at hfound
        exact hfound.trans hbytes.symm
  · intro h
    rcases h with hintact | ⟨_, other, after, hother, hafter, hagrees⟩
    · have hfound : now.read path = .ok bytes := hintact.trans hbytes
      have hok : (Fingerprint.read now path).isOk = true := by
        rw [Fingerprint.isOk_read]
        exact FileSystem.stat_isOk_of_read hfound
      cases hcurrent : Fingerprint.read now path with
      | error cause =>
          rw [hcurrent] at hok
          cases hok
      | ok current =>
          cases hagrees : current.agrees (.ofMetadata path before) with
          | true => exact ⟨_, .agreeing rfl hcurrent hagrees⟩
          | false => exact ⟨_, .moved rfl hcurrent hagrees hfound rfl⟩
    · have hsame : other = before := Except.ok.inj (hother.symm.trans hbefore)
      subst hsame
      have hcurrent : Fingerprint.read now path = .ok (.ofMetadata path after) := by
        unfold Fingerprint.read
        rw [show now.stat path = .ok after from hafter]
        rfl
      exact ⟨_, .agreeing rfl hcurrent hagrees⟩

theorem Made.passes_iff (h : Made past file) (htelling : file.Telling past now) :
    file.probe now ≠ .changed <-> file.Intact past now ∨ file.Alike past now := by
  cases h with
  | captured hcapture => exact passes_iff_of_capture hcapture htelling
  | absent hgone =>
      rename_i path
      have hmissing : (TrackedFile.absent path).missing = true := rfl
      rw [← stands_iff, stands_absent]
      unfold Intact Alike
      rw [hmissing]
      simp
      rfl

/-- The size is another one, or the times as they are counted are a millisecond apart. -/
def Moved (past now : FileSystem) (file : TrackedFile) : Prop :=
  forall before after, past.stat file.path = .ok before -> now.stat file.path = .ok after ->
    before.size ≠ after.size ∨
      (before.modified.Ordinary ∧ after.modified.Ordinary ∧
        1 ≤ |after.modified.counted - before.modified.counted|)

def Early (past now : FileSystem) (file : TrackedFile) : Prop :=
  file.missing = false ∧ exists before after,
    past.stat file.path = .ok before ∧ now.stat file.path = .ok after ∧
      before.size = after.size ∧ before.modified.seconds < 0 ∧ after.modified.seconds < 0

theorem Moved.not_alike (h : file.Moved past now) : ¬ file.Alike past now := by
  intro halike
  rcases halike with ⟨_, before, after, hbefore, hafter, hagrees⟩
  have hdisagree : (Fingerprint.ofMetadata file.path after).agrees
      (.ofMetadata file.path before) = false := by
    rcases h before after hbefore hafter with hsize | ⟨hfirst, hsecond, hapart⟩
    · exact Fingerprint.disagree_of_sizes hsize
    · exact Fingerprint.disagree_of_apart hfirst hsecond hapart
  rw [hdisagree] at hagrees
  cases hagrees

theorem Early.alike (h : file.Early past now) : file.Alike past now := by
  rcases h with ⟨hmissing, before, after, hbefore, hafter, hsize, hfirst, hsecond⟩
  exact ⟨hmissing, before, after, hbefore, hafter,
    Fingerprint.agree_of_early hsize hfirst hsecond⟩

end TrackedFile

/-!
# Checks of what was recorded
-/

namespace FileRecords

/-- What a check of files says of their changes, each since its own past. -/
structure Detection (now : FileSystem) (taken : List (FileSystem × TrackedFile))
    (result : Freshness) : Prop where
  fresh : result = .fresh <-> forall past file, (past, file) ∈ taken ->
    file.Intact past now ∨ file.Alike past now
  /-- Changes that move the size or the counted time are detected. -/
  detected : (forall past file, (past, file) ∈ taken ->
      file.Intact past now ∨ file.missing = true ∨ file.Moved past now) ->
    result = .fresh -> forall past file, (past, file) ∈ taken -> file.Intact past now
  /-- Changes from one time before 1970 to another with the size kept are not. -/
  hidden : (forall past file, (past, file) ∈ taken ->
      file.Intact past now ∨ file.Early past now) -> result = .fresh

theorem check_detects {records : FileRecords} {key : String} {now : FileSystem}
    {taken : List (FileSystem × TrackedFile)}
    (hfiles : records.find? key = some (taken.map Prod.snd))
    (hmade : forall past file, (past, file) ∈ taken -> TrackedFile.Made past file)
    (htelling : forall past file, (past, file) ∈ taken -> file.Telling past now) :
    Detection now taken (records.check now key).1 := by
  have hfresh : (records.check now key).1 = .fresh <-> forall past file, (past, file) ∈ taken ->
      file.Intact past now ∨ file.Alike past now := by
    rw [check_fresh_iff now hfiles]
    constructor
    · intro h past file hfile
      rw [← (hmade past file hfile).passes_iff (htelling past file hfile)]
      exact h file (List.mem_map_of_mem hfile)
    · intro h file hfile
      obtain ⟨one, hone, rfl⟩ := List.mem_map.mp hfile
      rw [(hmade one.1 one.2 hone).passes_iff (htelling one.1 one.2 hone)]
      exact h one.1 one.2 hone
  constructor
  case fresh => exact hfresh
  case detected =>
    intro hmoved hresult past file hfile
    rcases hfresh.mp hresult past file hfile with hintact | halike
    · exact hintact
    · rcases hmoved past file hfile with hintact | hmissing | hmoved
      · exact hintact
      · rw [halike.left] at hmissing
        cases hmissing
      · exact absurd halike hmoved.not_alike
  case hidden =>
    intro h
    rw [hfresh]
    intro past file hfile
    exact (h past file hfile).imp_right TrackedFile.Early.alike

def letterFile (letter : String) (time : Timestamp) : FileSystem :=
  (FileSystem.new [] ⟨0, 0⟩).put ["a"] (.file ⟨letter.toUTF8, time⟩)

def letterRecord (letter : String) (time : Timestamp) : TrackedFile :=
  .ofBytes ⟨⟨"a"⟩, letter.toUTF8.size, time.millis⟩ letter.toUTF8

theorem capture_letter (letter : String) (time : Timestamp) :
    TrackedFile.capture (letterFile letter time) ⟨"a"⟩ =
      .ok (letterRecord letter time, letter.toUTF8) := by
  rfl

theorem read_letter (letter : String) (time : Timestamp) :
    (letterFile letter time).read ⟨"a"⟩ = .ok letter.toUTF8 := by
  rfl

theorem check_detects_rewrite :
    let past := letterFile "A" ⟨0, 0⟩
    let now := letterFile "B" ⟨0, 1000000⟩
    let taken := [(past, letterRecord "A" ⟨0, 0⟩), (past, .absent ⟨"b"⟩)]
    let records : FileRecords := Table.empty.insert "k" (taken.map Prod.snd)
    (records.check now "k").1 = .stale ⟨"a"⟩ ∧ Detection now taken (records.check now "k").1 := by
  have hgone : ((letterFile "A" ⟨0, 0⟩).stat ⟨"b"⟩).isOk = false := by rfl
  have hhash : ContentHash.of "A".toUTF8 ≠ ContentHash.of "B".toUTF8 := by decide +kernel
  refine ⟨by decide +kernel, check_detects (by simp) ?_ ?_⟩
  · intro past file hfile
    rcases List.mem_pair.mp hfile with hone | hone
    · cases hone
      exact .captured (capture_letter _ _)
    · cases hone
      exact .absent hgone
  · intro past file hfile old new hold hnew hsame
    rcases List.mem_pair.mp hfile with hone | hone
    · cases hone
      cases (read_letter "A" _).symm.trans hold
      cases (read_letter "B" _).symm.trans hnew
      exact absurd hsame hhash
    · cases hone
      have hstat := FileSystem.stat_isOk_of_read hold
      rw [show (TrackedFile.absent ⟨"b"⟩).path = ⟨"b"⟩ from rfl, hgone] at hstat
      cases hstat

/-- Between two times before 1970 the letter can change. -/
theorem check_overlooks :
    let past := letterFile "A" ⟨-10, 0⟩
    let now := letterFile "B" ⟨-5, 0⟩
    let file := letterRecord "A" ⟨-10, 0⟩
    TrackedFile.capture past ⟨"a"⟩ = .ok (file, "A".toUTF8) ∧
      now.read ⟨"a"⟩ = .ok "B".toUTF8 ∧ ¬ file.Intact past now ∧
        (⟨-5, 0⟩ : Timestamp).exactMillis - (⟨-10, 0⟩ : Timestamp).exactMillis = 5000 ∧
          (check (Table.empty.insert "k" [file]) now "k").1 = .fresh := by
  refine ⟨capture_letter _ _, read_letter _ _, ?_, ?_, by decide +kernel⟩
  · intro hintact
    have hsame : (Except.ok "B".toUTF8 : Except IoError ByteArray) = .ok "A".toUTF8 := hintact
    have hbytes : "B".toUTF8 = "A".toUTF8 := Except.ok.inj hsame
    exact absurd hbytes (by decide)
  · norm_num [Timestamp.exactMillis]

end FileRecords
end LessonPress

import LessonPress.Compiler.Config

/-!
# Windows of cache entries

## Which entries may be served for longer than others

Sums stop at the largest stamp, so nothing that is added to a window makes it shorter.  Spans
do not stop there: of their milliseconds the low 64 bits are kept, and a span of more than
some 584 million years counts for a shorter one.
-/

namespace LessonPress

namespace Duration

def length (span : Duration) : Nat :=
  span.seconds.toNat * 1000000000 + span.nanos

instance : LE Duration :=
  ⟨fun span longer => span.length ≤ longer.length⟩

/-- All whole milliseconds of a span, however many they are. -/
def wholeMillis (span : Duration) : Nat :=
  span.length / 1000000

def Fits (span : Duration) : Prop :=
  span.wholeMillis < UInt64.size

theorem toNat_millis (span : Duration) :
    span.millis.toNat = span.wholeMillis % UInt64.size := by
  have hmillis : span.seconds.toNat * 1000 + span.nanos / 1000000 = span.wholeMillis := by
    unfold wholeMillis length
    omega
  unfold millis
  rw [hmillis, UInt64.toNat_ofNat']

theorem Fits.toNat_millis {span : Duration} (h : span.Fits) :
    span.millis.toNat = span.wholeMillis := by
  rw [Duration.toNat_millis]
  exact Nat.mod_eq_of_lt h

/-- A span whose milliseconds fit counts for no less than a shorter one. -/
theorem millis_le_of_fits {span longer : Duration} (h : span ≤ longer) (hfits : longer.Fits) :
    span.millis ≤ longer.millis := by
  have hle : span.wholeMillis ≤ longer.wholeMillis := Nat.div_le_div_right h
  have hspan : span.Fits := Nat.lt_of_le_of_lt hle hfits
  rw [UInt64.le_iff_toNat_le, hspan.toNat_millis, hfits.toNat_millis]
  exact hle

theorem wholeMillis_ofSeconds (seconds : UInt64) :
    (ofSeconds seconds).wholeMillis = seconds.toNat * 1000 := by
  unfold wholeMillis length ofSeconds
  dsimp only
  omega

end Duration

theorem toNat_saturatingAdd (a b : UInt64) :
    (saturatingAdd a b).toNat = min (a.toNat + b.toNat) (UInt64.size - 1) := by
  have hsize : UInt64.size = 2 ^ 64 := rfl
  unfold saturatingAdd
  split
  · rename_i hlt
    rw [UInt64.toNat_add]
    omega
  · rename_i hge
    change (UInt64.size - 1) % 2 ^ 64 = _
    omega

namespace CacheEntry

variable {alpha : Type}

/-!
# Where windows end
-/

theorem isFreshAt_iff {entry : CacheEntry alpha} {ttl : UInt64} (h : entry.ttl = some ttl)
    (now : UInt64) :
    entry.isFreshAt now = true <->
      now.toNat < min (entry.created.toNat + ttl.toNat) (UInt64.size - 1) := by
  unfold isFreshAt
  rw [h, ← toNat_saturatingAdd]
  simp [UInt64.lt_iff_toNat_lt]

theorem isServableStaleAt_iff {entry : CacheEntry alpha} {ttl : UInt64}
    (h : entry.ttl = some ttl) (now : UInt64) :
    entry.isServableStaleAt now = true <->
      now.toNat <
        min (entry.created.toNat + ttl.toNat + entry.grace.toNat) (UInt64.size - 1) := by
  have hend : (saturatingAdd (saturatingAdd entry.created ttl) entry.grace).toNat =
      min (entry.created.toNat + ttl.toNat + entry.grace.toNat) (UInt64.size - 1) := by
    rw [toNat_saturatingAdd, toNat_saturatingAdd]
    omega
  unfold isServableStaleAt
  rw [h, ← hend]
  simp [UInt64.lt_iff_toNat_lt]

def FreshWithin (entry other : CacheEntry alpha) : Prop :=
  forall now, entry.isFreshAt now = true -> other.isFreshAt now = true

def ServableWithin (entry other : CacheEntry alpha) : Prop :=
  forall now, entry.isServableStaleAt now = true -> other.isServableStaleAt now = true

section Spans

variable (value : alpha) (ttl longer grace wider : Duration)

theorem freshWithin_iff :
    (forall created, FreshWithin (new value created (some ttl) grace)
      (new value created (some longer) wider)) <-> ttl.millis ≤ longer.millis := by
  constructor
  · intro hwithin
    -- An entry of the first moment shows where the two windows end.
    have hlast := ttl.millis.toNat_lt_size
    have hfresh := hwithin 0 longer.millis
    rw [isFreshAt_iff rfl, isFreshAt_iff rfl] at hfresh
    simp only [new, UInt64.toNat_zero] at hfresh
    rw [UInt64.le_iff_toNat_le]
    omega
  · intro hle created now
    rw [UInt64.le_iff_toNat_le] at hle
    rw [isFreshAt_iff rfl, isFreshAt_iff rfl]
    simp only [new]
    omega

theorem servableWithin_iff :
    (forall created, ServableWithin (new value created (some ttl) grace)
      (new value created (some longer) wider)) <->
      saturatingAdd ttl.millis grace.millis ≤ saturatingAdd longer.millis wider.millis := by
  rw [UInt64.le_iff_toNat_le, toNat_saturatingAdd, toNat_saturatingAdd]
  constructor
  · intro hwithin
    have hservable := hwithin 0 (saturatingAdd longer.millis wider.millis)
    rw [isServableStaleAt_iff rfl, isServableStaleAt_iff rfl, toNat_saturatingAdd] at hservable
    simp only [new, UInt64.toNat_zero] at hservable
    omega
  · intro hle created now
    rw [isServableStaleAt_iff rfl, isServableStaleAt_iff rfl]
    simp only [new]
    omega

variable {ttl longer grace wider} in
theorem servableWithin_of_le (created : UInt64) (httl : ttl.millis ≤ longer.millis)
    (hgrace : grace.millis ≤ wider.millis) :
    ServableWithin (new value created (some ttl) grace)
      (new value created (some longer) wider) := by
  refine (servableWithin_iff value ttl longer grace wider).mpr ?_ created
  rw [UInt64.le_iff_toNat_le] at *
  rw [toNat_saturatingAdd, toNat_saturatingAdd]
  omega

end Spans

/-- An entry that is still fresh may also stand in. -/
theorem isServableStaleAt_of_isFreshAt {entry : CacheEntry alpha} {now : UInt64}
    (h : entry.isFreshAt now = true) : entry.isServableStaleAt now = true := by
  cases httl : entry.ttl with
  | none =>
      unfold isServableStaleAt
      rw [httl]
  | some ttl =>
      rw [isFreshAt_iff httl] at h
      rw [isServableStaleAt_iff httl]
      omega

theorem isFreshAt_of_le {entry : CacheEntry alpha} {before now : UInt64} (hle : before ≤ now)
    (h : entry.isFreshAt now = true) : entry.isFreshAt before = true := by
  rw [UInt64.le_iff_toNat_le] at hle
  cases httl : entry.ttl with
  | none =>
      unfold isFreshAt
      rw [httl]
  | some ttl =>
      rw [isFreshAt_iff httl] at *
      omega

theorem isServableStaleAt_of_le {entry : CacheEntry alpha} {before now : UInt64}
    (hle : before ≤ now) (h : entry.isServableStaleAt now = true) :
    entry.isServableStaleAt before = true := by
  rw [UInt64.le_iff_toNat_le] at hle
  cases httl : entry.ttl with
  | none =>
      unfold isServableStaleAt
      rw [httl]
  | some ttl =>
      rw [isServableStaleAt_iff httl] at *
      omega

end CacheEntry

/-!
# Lifetimes from the environment
-/

namespace CompilerConfig

/-- The most seconds whose milliseconds fit. -/
def longestLifetime : UInt64 :=
  18446744073709551

theorem fits_ofSeconds_iff (seconds : UInt64) :
    (Duration.ofSeconds seconds).Fits <-> seconds ≤ longestLifetime := by
  have hsize : UInt64.size = 2 ^ 64 := rfl
  have hlongest : longestLifetime.toNat = 18446744073709551 := rfl
  unfold Duration.Fits
  rw [Duration.wholeMillis_ofSeconds, UInt64.le_iff_toNat_le, hlongest]
  omega

theorem le_longestLifetime {seconds : UInt64}
    (h : Duration.ofSeconds seconds ≤ .ofSeconds longestLifetime) : seconds ≤ longestLifetime := by
  change (Duration.ofSeconds seconds).length ≤ (Duration.ofSeconds longestLifetime).length at h
  unfold Duration.length Duration.ofSeconds at h
  rw [UInt64.le_iff_toNat_le]
  dsimp only at h
  omega

/-- A lifetime from the environment is a number of seconds above zero. -/
theorem ttl_ofEnvironment {lookUp : String -> Option String} {ttl : Duration}
    (h : (ofEnvironment lookUp).ttl = some ttl) :
    exists seconds, seconds ≠ 0 ∧ ttl = .ofSeconds seconds ∧
      (lookUp "LECTERN_CACHE_TTL_SECS").bind readSeconds = some seconds := by
  unfold ofEnvironment at h
  dsimp only at h
  split at h
  · split at h <;> cases h
  · rename_i seconds hseconds
    unfold lifetimeOf at h
    split at h
    · cases h
    · rename_i hne
      exact ⟨seconds, hne, (Option.some.inj h).symm, hseconds⟩

end CompilerConfig

/-!
# Longer spans and windows
-/

namespace CacheEntry

variable {alpha : Type}

/-- What longer spans, later moments and no lifetime at all make of the windows of an entry:
what counts of a span is what is left of its milliseconds in 64 bits. -/
structure Windows (value : alpha) : Prop where
  fresh : forall ttl longer grace wider,
    (forall created, FreshWithin (new value created (some ttl) grace)
      (new value created (some longer) wider)) <->
      ttl.wholeMillis % UInt64.size ≤ longer.wholeMillis % UInt64.size
  servable : forall ttl longer grace wider,
    (forall created, ServableWithin (new value created (some ttl) grace)
      (new value created (some longer) wider)) <->
      saturatingAdd ttl.millis grace.millis ≤ saturatingAdd longer.millis wider.millis
  longer : forall ttl longer grace wider created, ttl ≤ longer -> longer.Fits ->
    FreshWithin (new value created (some ttl) grace) (new value created (some longer) wider)
  wider : forall ttl longer grace wider created, ttl ≤ longer -> longer.Fits ->
    grace ≤ wider -> wider.Fits ->
    ServableWithin (new value created (some ttl) grace) (new value created (some longer) wider)
  within : forall (entry : CacheEntry alpha) now, entry.isFreshAt now = true ->
    entry.isServableStaleAt now = true
  earlier : forall (entry : CacheEntry alpha) before now, before ≤ now ->
    (entry.isFreshAt now = true -> entry.isFreshAt before = true) ∧
      (entry.isServableStaleAt now = true -> entry.isServableStaleAt before = true)
  endless : forall created ttl grace wider,
    FreshWithin (new value created ttl grace) (new value created none wider) ∧
      ServableWithin (new value created ttl grace) (new value created none wider)
  environment : forall lookUp other seconds more,
    (CompilerConfig.ofEnvironment lookUp).ttl = some seconds ->
    (CompilerConfig.ofEnvironment other).ttl = some more -> seconds ≤ more ->
    more ≤ .ofSeconds CompilerConfig.longestLifetime -> forall created grace,
    FreshWithin (new value created (some seconds) grace)
        (new value created (some more) grace) ∧
      ServableWithin (new value created (some seconds) grace)
        (new value created (some more) grace)

/-- Each window grows with its spans as long as their milliseconds fit. -/
theorem windows_grow (value : alpha) : Windows value := by
  constructor
  case fresh =>
    intro ttl longer grace wider
    rw [freshWithin_iff, UInt64.le_iff_toNat_le, Duration.toNat_millis, Duration.toNat_millis]
  case servable => exact servableWithin_iff value
  case longer =>
    intro ttl longer grace wider created hle hfits
    have hmillis := Duration.millis_le_of_fits hle hfits
    exact (freshWithin_iff value ttl longer grace wider).mpr hmillis created
  case wider =>
    intro ttl longer grace wider created hlonger hfits hwider hgrace
    have httl := Duration.millis_le_of_fits hlonger hfits
    have hmillis := Duration.millis_le_of_fits hwider hgrace
    exact servableWithin_of_le value created httl hmillis
  case within => exact fun _ _ => isServableStaleAt_of_isFreshAt
  case earlier =>
    exact fun _ _ _ hle => ⟨isFreshAt_of_le hle, isServableStaleAt_of_le hle⟩
  case endless => exact fun _ _ _ _ => ⟨fun _ _ => rfl, fun _ _ => rfl⟩
  case environment =>
    intro lookUp other seconds more _ hmore hle hlongest created grace
    obtain ⟨count, _, rfl, _⟩ := CompilerConfig.ttl_ofEnvironment hmore
    have hcount := CompilerConfig.le_longestLifetime hlongest
    have hfits := (CompilerConfig.fits_ofSeconds_iff count).mpr hcount
    have hmillis := Duration.millis_le_of_fits hle hfits
    exact ⟨(freshWithin_iff value seconds _ grace grace).mpr hmillis created,
      servableWithin_of_le value created hmillis (UInt64.le_refl _)⟩

def lifetimeOnly (seconds : String) (name : String) : Option String :=
  if name = "LECTERN_CACHE_TTL_SECS" then some seconds else none

theorem windows_grow_hour :
    Duration.ofSeconds 60 ≤ Duration.ofSeconds 3600 ∧ (Duration.ofSeconds 3600).Fits ∧
      (new "v" 1000 (some (.ofSeconds 60)) .zero).isFreshAt 60999 = true ∧
      (new "v" 1000 (some (.ofSeconds 3600)) .zero).isFreshAt 60999 = true := by
  have hle : Duration.ofSeconds 60 ≤ Duration.ofSeconds 3600 := by
    change (Duration.ofSeconds 60).length ≤ (Duration.ofSeconds 3600).length
    decide
  have hfits : (Duration.ofSeconds 3600).Fits := by
    unfold Duration.Fits
    decide
  have hfresh : (new "v" 1000 (some (.ofSeconds 60)) .zero).isFreshAt 60999 = true := by
    decide
  exact ⟨hle, hfits, hfresh,
    (windows_grow "v").longer _ _ .zero .zero 1000 hle hfits 60999 hfresh⟩

/-- A lifetime of some 73 billion years counts for none at all. -/
theorem expires_sooner :
    (CompilerConfig.ofEnvironment (lifetimeOnly "3600")).ttl = some (.ofSeconds 3600) ∧
      (CompilerConfig.ofEnvironment (lifetimeOnly "2305843009213693952")).ttl =
        some (.ofSeconds 2305843009213693952) ∧
      Duration.ofSeconds 3600 ≤ .ofSeconds 2305843009213693952 ∧
      (new "v" 1000 (some (.ofSeconds 3600)) .zero).isFreshAt 1001 = true ∧
      (new "v" 1000 (some (.ofSeconds 2305843009213693952)) .zero).isFreshAt 1001 = false ∧
      (new "v" 1000 (some (.ofSeconds 2305843009213693952)) .zero).isServableStaleAt 1001 =
        false := by
  refine ⟨by decide +kernel, by decide +kernel, ?_, by decide +kernel, by decide +kernel,
    by decide +kernel⟩
  change (Duration.ofSeconds 3600).length ≤ (Duration.ofSeconds 2305843009213693952).length
  decide +kernel

end CacheEntry
end LessonPress

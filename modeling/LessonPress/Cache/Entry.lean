import LessonPress.Fingerprint.Tracked

/-!
# Cache entries

## Values and the windows in which they may be served

Stamps and windows are whole milliseconds of 64 bits.  A sum that does not fit
stops at the largest stamp, so a window never ends before it begins.
-/

namespace LessonPress

structure Duration where
  seconds : UInt64
  nanos : Nat
deriving DecidableEq, Inhabited

namespace Duration

def zero : Duration :=
  ⟨0, 0⟩

def ofSeconds (seconds : UInt64) : Duration :=
  ⟨seconds, 0⟩

/-- The whole milliseconds of the span, reduced to 64 bits. -/
def millis (span : Duration) : UInt64 :=
  UInt64.ofNat (span.seconds.toNat * 1000 + span.nanos / 1000000)

end Duration

def saturatingAdd (a b : UInt64) : UInt64 :=
  if a.toNat + b.toNat < UInt64.size then a + b else UInt64.ofNat (UInt64.size - 1)

structure CacheEntry (alpha : Type) where
  value : alpha
  created : UInt64
  ttl : Option UInt64
  grace : UInt64
deriving DecidableEq, Inhabited

namespace CacheEntry

variable {alpha : Type}

def new (value : alpha) (created : UInt64) (ttl : Option Duration) (grace : Duration) :
    CacheEntry alpha :=
  ⟨value, created, ttl.map Duration.millis, grace.millis⟩

def isFreshAt (entry : CacheEntry alpha) (now : UInt64) : Bool :=
  match entry.ttl with
  | none => true
  | some ttl => now < saturatingAdd entry.created ttl

def isServableStaleAt (entry : CacheEntry alpha) (now : UInt64) : Bool :=
  match entry.ttl with
  | none => true
  | some ttl => now < saturatingAdd (saturatingAdd entry.created ttl) entry.grace

/-- The stamp of an entry that replaces one with the given stamp: the current
time, or the successor of the old stamp if that is not in the past. -/
def nextCreated (now : UInt64) (previous : Option UInt64) : UInt64 :=
  match previous with
  | none => now
  | some stamp => if now ≤ stamp then stamp + 1 else now

/-!
# Encoding
-/

def toJson (encode : alpha -> Json) (entry : CacheEntry alpha) : Json :=
  .object
    [("value", encode entry.value),
      ("createdTimeMillis", .nat entry.created.toNat),
      ("ttlMillis", Json.optional (fun ttl => .nat ttl.toNat) entry.ttl),
      ("staleWhileRevalidateMillis", .nat entry.grace.toNat)]

def fieldRules : List Json.FieldRule :=
  [{ name := "value" }, { name := "createdTimeMillis" }, { name := "ttlMillis" },
    { name := "staleWhileRevalidateMillis", mayEnd := true }]

def ofJson? (decode : Json -> Option alpha) (value : Json) : Option (CacheEntry alpha) :=
  match Json.record fieldRules value with
  | some [value, created, ttl, grace] => do
      let value ← Json.required decode value
      let created ← Json.required Json.asUInt64 created
      let ttl ← Json.nullable Json.asUInt64 ttl
      let grace ← Json.defaulted 0 Json.asUInt64 grace
      some ⟨value, created, ttl, grace⟩
  | _ => none

end CacheEntry

structure PersistedEntry (alpha : Type) where
  key : String
  entry : CacheEntry alpha
  tracked : List TrackedFile
deriving DecidableEq, Inhabited

namespace PersistedEntry

variable {alpha : Type}

def toJson (encode : alpha -> Json) (persisted : PersistedEntry alpha) : Json :=
  .object
    [("key", .string persisted.key),
      ("entry", persisted.entry.toJson encode),
      ("tracked", Json.list TrackedFile.toJson persisted.tracked)]

def fieldRules : List Json.FieldRule :=
  [{ name := "key" }, { name := "entry" }, { name := "tracked" }]

def ofJson? (decode : Json -> Option alpha) (value : Json) : Option (PersistedEntry alpha) :=
  match Json.record fieldRules value with
  | some [key, entry, tracked] => do
      let key ← Json.required Json.asString key
      let entry ← Json.required (CacheEntry.ofJson? decode) entry
      let tracked ← Json.required (Json.asList TrackedFile.ofJson?) tracked
      some ⟨key, entry, tracked⟩
  | _ => none

end PersistedEntry
end LessonPress

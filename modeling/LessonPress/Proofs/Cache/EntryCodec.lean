import LessonPress.Cache.JsonStore
import LessonPress.Proofs.Json.Values

/-!
# Entries in a store

## An entry comes back from the text that is stored for it

This takes a codec that gives back every value, and fingerprints whose numbers are
read back as they were: sizes of 64 bits, and times that survive the reader's rounding.
-/

namespace LessonPress

/-- Every value comes back from its JSON, and the JSON comes back from its text. -/
structure Codec.Faithful {alpha : Type} (codec : Codec alpha) : Prop where
  decode : forall value, codec.decode (codec.encode value) = some value
  readable : forall value, (codec.encode value).Readable

theorem Codec.faithful_string : Codec.string.Faithful :=
  ⟨fun _ => rfl, fun _ => trivial⟩

/-!
# Fingerprints and tracked files
-/

def Fingerprint.Exact (fingerprint : Fingerprint) : Prop :=
  fingerprint.size < UInt64.size ∧
    Json.readNumber fingerprint.modified.toText = some (.float fingerprint.modified, [])

def Fingerprint.isExact (fingerprint : Fingerprint) : Bool :=
  decide (fingerprint.size < UInt64.size) &&
    match Json.readNumber fingerprint.modified.toText with
    | some (.float value, []) => decide (value = fingerprint.modified)
    | _ => false

theorem Fingerprint.isExact_iff (fingerprint : Fingerprint) :
    fingerprint.isExact = true <-> fingerprint.Exact := by
  unfold isExact Exact
  rw [Bool.and_eq_true, decide_eq_true_iff]
  apply and_congr_right
  intro _
  constructor
  · intro h
    split at h
    · rename_i hread
      rw [hread, of_decide_eq_true h]
    · cases h
  · intro h
    rw [h]
    exact decide_eq_true rfl

instance (fingerprint : Fingerprint) : Decidable fingerprint.Exact :=
  decidable_of_iff _ fingerprint.isExact_iff

theorem Fingerprint.ofJson?_toJson {fingerprint : Fingerprint} (h : fingerprint.Exact) :
    ofJson? fingerprint.toJson = some fingerprint := by
  have hrecord : Json.record fieldRules fingerprint.toJson =
      some [some (.string fingerprint.path.text), some (.nat fingerprint.size),
        some (.float fingerprint.modified)] := rfl
  unfold ofJson?
  rw [hrecord]
  simp [Json.required, Json.asString, Json.asWord_nat h.left, Json.asFloat]

theorem Fingerprint.readable_toJson {fingerprint : Fingerprint} (h : fingerprint.Exact) :
    fingerprint.toJson.Readable :=
  ⟨trivial, Json.readable_nat h.left, h.right, trivial⟩

namespace TrackedFile

theorem ofJson?_toJson {file : TrackedFile} (h : file.fingerprint.Exact) :
    ofJson? file.toJson = some file := by
  rcases file with ⟨fingerprint, contentHash, missing⟩
  have hfingerprint := Fingerprint.ofJson?_toJson h
  cases missing with
  | false =>
      have hrecord : Json.record fieldRules (toJson ⟨fingerprint, contentHash, false⟩) =
          some [some fingerprint.toJson, some (.string contentHash.hex), none] := rfl
      unfold ofJson?
      rw [hrecord]
      simp [Json.required, Json.asString, Json.defaulted, hfingerprint]
  | true =>
      have hrecord : Json.record fieldRules (toJson ⟨fingerprint, contentHash, true⟩) =
          some [some fingerprint.toJson, some (.string contentHash.hex),
            some (.bool true)] := rfl
      unfold ofJson?
      rw [hrecord]
      simp [Json.required, Json.asString, Json.asBool, Json.defaulted, hfingerprint]

theorem readable_toJson {file : TrackedFile} (h : file.fingerprint.Exact) :
    file.toJson.Readable := by
  rcases file with ⟨fingerprint, contentHash, missing⟩
  have hfingerprint := Fingerprint.readable_toJson h
  cases missing with
  | false => exact ⟨hfingerprint, trivial, trivial⟩
  | true => exact ⟨hfingerprint, trivial, trivial, trivial⟩

end TrackedFile

/-!
# Entries
-/

namespace CacheEntry

variable {alpha : Type} {codec : Codec alpha}

theorem ofJson?_toJson (hcodec : codec.Faithful) (entry : CacheEntry alpha) :
    ofJson? codec.decode (entry.toJson codec.encode) = some entry := by
  rcases entry with ⟨value, created, ttl, grace⟩
  have hrecord : Json.record fieldRules (toJson codec.encode ⟨value, created, ttl, grace⟩) =
      some [some (codec.encode value), some (.nat created.toNat),
        some (Json.optional (fun ttl => .nat ttl.toNat) ttl), some (.nat grace.toNat)] := rfl
  have hvalue : Json.required codec.decode (some (codec.encode value)) = some value :=
    hcodec.decode value
  have hcreated : Json.required Json.asUInt64 (some (.nat created.toNat)) = some created :=
    Json.asUInt64_nat created
  have hgrace : Json.defaulted 0 Json.asUInt64 (some (.nat grace.toNat)) = some grace :=
    Json.asUInt64_nat grace
  have httl : Json.nullable Json.asUInt64
      (some (Json.optional (fun ttl => .nat ttl.toNat) ttl)) = some ttl := by
    cases ttl with
    | none => rfl
    | some span =>
        show (Json.asUInt64 (.nat span.toNat)).map some = some (some span)
        rw [Json.asUInt64_nat]
        rfl
  unfold ofJson?
  rw [hrecord]
  simp [hvalue, hcreated, httl, hgrace]

theorem readable_toJson (hcodec : codec.Faithful) (entry : CacheEntry alpha) :
    (entry.toJson codec.encode).Readable := by
  have httl : (Json.optional (fun ttl => .nat ttl.toNat) entry.ttl).Readable := by
    cases entry.ttl with
    | none => exact trivial
    | some span => exact Json.readable_nat span.toNat_lt
  exact ⟨hcodec.readable entry.value, Json.readable_nat entry.created.toNat_lt, httl,
    Json.readable_nat entry.grace.toNat_lt, trivial⟩

end CacheEntry

namespace PersistedEntry

variable {alpha : Type} {codec : Codec alpha}

def Exact (persisted : PersistedEntry alpha) : Prop :=
  forall file, file ∈ persisted.tracked -> file.fingerprint.Exact

theorem ofJson?_toJson (hcodec : codec.Faithful) {persisted : PersistedEntry alpha}
    (h : persisted.Exact) :
    ofJson? codec.decode (persisted.toJson codec.encode) = some persisted := by
  have hrecord : Json.record fieldRules (persisted.toJson codec.encode) =
      some [some (.string persisted.key), some (persisted.entry.toJson codec.encode),
        some (Json.list TrackedFile.toJson persisted.tracked)] := rfl
  have hentry : Json.required (CacheEntry.ofJson? codec.decode)
      (some (persisted.entry.toJson codec.encode)) = some persisted.entry :=
    CacheEntry.ofJson?_toJson hcodec persisted.entry
  have htracked : Json.required (Json.asList TrackedFile.ofJson?)
      (some (Json.list TrackedFile.toJson persisted.tracked)) = some persisted.tracked :=
    Json.asList_list fun file hfile => TrackedFile.ofJson?_toJson (h file hfile)
  have hkey : Json.required Json.asString (some (.string persisted.key)) =
      some persisted.key := rfl
  unfold ofJson?
  rw [hrecord]
  simp [hkey, hentry, htracked]

theorem readable_toJson (hcodec : codec.Faithful) {persisted : PersistedEntry alpha}
    (h : persisted.Exact) : (persisted.toJson codec.encode).Readable :=
  ⟨trivial, CacheEntry.readable_toJson hcodec persisted.entry,
    Json.readable_list fun file hfile => TrackedFile.readable_toJson (h file hfile), trivial⟩

end PersistedEntry

namespace JsonStore

variable {alpha : Type} {store : JsonStore alpha} {persisted : PersistedEntry alpha}

def reread (store : JsonStore alpha) (persisted : PersistedEntry alpha) :
    Except Error (Option (PersistedEntry alpha)) :=
  match store.readEntry (store.entryText persisted).toUTF8 with
  | none => .error malformed
  | some back => if back.key = persisted.key then .ok (some back) else .ok none

theorem readEntry_entryText (hcodec : store.codec.Faithful) (h : persisted.Exact) :
    store.readEntry (store.entryText persisted).toUTF8 = some persisted := by
  have htext : forall text : String, String.fromUTF8? text.toUTF8 = some text := by
    intro text
    rw [String.toUTF8_eq_toByteArray]
    exact dif_pos text.isValidUTF8
  unfold readEntry entryText
  rw [htext, Option.bind_eq_bind, Option.bind_some,
    Json.ofText?_toText (PersistedEntry.readable_toJson hcodec h)]
  exact PersistedEntry.ofJson?_toJson hcodec h

theorem reread_eq (hcodec : store.codec.Faithful) (h : persisted.Exact) :
    store.reread persisted = .ok (some persisted) := by
  unfold reread
  rw [readEntry_entryText hcodec h]
  exact if_pos rfl

end JsonStore
end LessonPress

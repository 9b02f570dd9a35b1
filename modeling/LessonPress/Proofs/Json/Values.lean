import LessonPress.Json.Shape
import LessonPress.Proofs.Json.RoundTrip

/-!
# Typed values in JSON

## What an encoder writes and what a decoder can give

A value returns if the decoder undoes the encoder on it and the JSON in between is read back
from its text.  In the other direction a decoder only gives values of a certain kind, such as
numbers below a limit.
-/

namespace LessonPress
namespace Json

variable {alpha : Type} {encode : alpha -> Json} {decode : Json -> Option alpha}

/-- The value comes back from its JSON, and the JSON from its text. -/
structure Returns (encode : alpha -> Json) (decode : Json -> Option alpha) (value : alpha) :
    Prop where
  decoded : decode (encode value) = some value
  readable : (encode value).Readable

theorem Returns.ofText? {value : alpha} (h : Returns encode decode value) :
    (Json.ofText? (encode value).toText).bind decode = some value := by
  rw [ofText?_toText h.readable]
  exact h.decoded

theorem Returns.toText_inj {value other : alpha} (h : Returns encode decode value)
    (hother : Returns encode decode other) :
    (encode value).toText = (encode other).toText <-> value = other := by
  constructor
  · intro htext
    have hback := h.ofText?
    rw [htext, hother.ofText?] at hback
    exact (Option.some.inj hback).symm
  · intro heq
    rw [heq]

/-!
# Plain values
-/

theorem returns_string (text : String) : Returns .string asString text :=
  ⟨rfl, trivial⟩

theorem readable_nat {n : Nat} (h : n < UInt64.size) : (nat n).Readable :=
  h

theorem asNat_nat {limit n : Nat} (h : n < limit) : asNat limit (nat n) = some n := by
  show (if n < limit then some n else none) = some n
  rw [if_pos h]

theorem asWord_nat {n : Nat} (h : n < UInt64.size) : asWord (nat n) = some n :=
  asNat_nat h

theorem asUInt64_nat (n : UInt64) : asUInt64 (nat n.toNat) = some n := by
  unfold asUInt64
  rw [asWord_nat n.toNat_lt, Option.map_some, UInt64.ofNat_toNat]

theorem asList_list {values : List alpha}
    (h : forall value, value ∈ values -> decode (encode value) = some value) :
    asList decode (list encode values) = some values := by
  show allSome ((values.map encode).map decode) = some values
  induction values with
  | nil => rfl
  | cons value more ih =>
      have hmore := ih fun other hother => h other (List.mem_cons_of_mem _ hother)
      rw [List.map_cons, List.map_cons, h value List.mem_cons_self]
      show (allSome ((more.map encode).map decode)).map (value :: ·) = _
      rw [hmore]
      rfl

theorem readable_list {values : List alpha}
    (h : forall value, value ∈ values -> (encode value).Readable) :
    (list encode values).Readable := by
  apply readableItems_iff.mpr
  intro item hitem
  rcases List.mem_map.mp hitem with ⟨value, hvalue, hencode⟩
  rw [← hencode]
  exact h value hvalue

theorem returns_list {values : List alpha}
    (h : forall value, value ∈ values -> Returns encode decode value) :
    Returns (list encode) (asList decode) values :=
  ⟨asList_list fun value hvalue => (h value hvalue).decoded,
    readable_list fun value hvalue => (h value hvalue).readable⟩

theorem returns_strings (values : List String) : Returns strings (asList asString) values :=
  returns_list fun value _ => returns_string value

theorem returns_optional {value : Option alpha}
    (h : forall present, present ∈ value -> Returns encode decode present)
    (hnull : forall present, encode present ≠ .null) :
    Returns (optional encode) (asOptional decode) value := by
  cases value with
  | none => exact ⟨rfl, trivial⟩
  | some present =>
      have hpresent := h present rfl
      refine ⟨?_, hpresent.readable⟩
      unfold optional asOptional
      dsimp only
      split
      · rename_i heq
        exact absurd heq (hnull present)
      · rw [hpresent.decoded]
        rfl

/-!
# What a decoder can give
-/

theorem asNat_lt {limit n : Nat} {value : Json} (h : asNat limit value = some n) :
    n < limit := by
  unfold asNat at h
  split at h
  · split at h
    · rename_i hlt
      cases h
      exact hlt
    · cases h
  · cases h

theorem exists_of_required {found : Option Json} {value : alpha}
    (h : required decode found = some value) : exists json, decode json = some value := by
  cases found with
  | none => cases h
  | some json => exact ⟨json, h⟩

theorem exists_of_asOptional {json : Json} {value : alpha}
    (h : asOptional decode json = some (some value)) : exists json, decode json = some value := by
  unfold asOptional at h
  split at h
  · cases h
  · obtain ⟨present, hpresent, heq⟩ := Option.map_eq_some_iff.mp h
    cases heq
    exact ⟨json, hpresent⟩

theorem exists_of_nullable {found : Option Json} {value : alpha}
    (h : nullable decode found = some (some value)) : exists json, decode json = some value := by
  cases found with
  | none => cases h
  | some json => exact exists_of_asOptional h

theorem exists_of_allSome {found : List (Option alpha)} {values : List alpha}
    (h : allSome found = some values) {value : alpha} (hvalue : value ∈ values) :
    some value ∈ found := by
  induction found generalizing values with
  | nil =>
      cases h
      cases hvalue
  | cons first rest ih =>
      cases first with
      | none => cases h
      | some head =>
          obtain ⟨tail, htail, heq⟩ := Option.map_eq_some_iff.mp h
          cases heq
          rcases List.mem_cons.mp hvalue with hhead | hmem
          · rw [hhead]
            exact List.mem_cons_self
          · exact List.mem_cons_of_mem _ (ih htail hmem)

theorem exists_of_asList {json : Json} {values : List alpha}
    (h : asList decode json = some values) {value : alpha} (hvalue : value ∈ values) :
    exists json, decode json = some value := by
  unfold asList at h
  split at h
  · rename_i items
    obtain ⟨item, _, hitem⟩ := List.mem_map.mp (exists_of_allSome h hvalue)
    exact ⟨item, hitem⟩
  · cases h

/-!
# Variants
-/

theorem tagged_object {tag kind : String} {fields : List (String × Json)}
    (h : occurrences tag fields = 0) :
    tagged tag (.object ((tag, .string kind) :: fields)) = some (kind, .object fields) := by
  have hall : forall entry, entry ∈ fields -> (entry.1 != tag) = true := by
    intro entry hentry
    have hne := List.countP_eq_zero.mp h entry hentry
    simpa using hne
  have hfilter : (fields.filter fun entry => entry.1 != tag) = fields :=
    List.filter_eq_self.mpr hall
  have hcount : occurrences tag ((tag, .string kind) :: fields) = 1 := by
    unfold occurrences at h ⊢
    rw [List.countP_cons, h]
    simp
  unfold tagged
  dsimp only
  rw [if_pos hcount]
  simp [lookUp, asString, hfilter]

end Json
end LessonPress

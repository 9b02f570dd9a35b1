import LessonPress.Proofs.Json.Tokens

/-!
# Reading what was printed

## A JSON value comes back from its text

Whole numbers come back within the range of 64 bits.  Whether a binary number comes
back depends on the number, since the reader does not always round correctly.
-/

namespace LessonPress
namespace Json

open Text

mutual

def Readable : Json -> Prop
  | .int value => FitsWord value
  | .float value => readNumber value.toText = some (.float value, [])
  | .array items => ReadableItems items
  | .object fields => ReadableFields fields
  | _ => True

def ReadableItems : List Json -> Prop
  | [] => True
  | item :: more => item.Readable ∧ ReadableItems more

def ReadableFields : List (String × Json) -> Prop
  | [] => True
  | (_, value) :: more => value.Readable ∧ ReadableFields more

end

theorem readableItems_iff {items : List Json} :
    ReadableItems items <-> forall item, item ∈ items -> item.Readable := by
  induction items with
  | nil => simp [ReadableItems]
  | cons item more ih => simp [ReadableItems, ih]

theorem skipGap_cons {c : Char} (h : isGap c = false) (rest : List Char) :
    skipGap (c :: rest) = c :: rest := by
  simp [skipGap, h]

theorem not_isGap_of_number {c : Char} (h : c = '-' ∨ isDigit c = true) : isGap c = false := by
  rcases h with h | h
  · rw [h]
    rfl
  · cases hgap : isGap c with
    | false => rfl
    | true =>
        simp only [isGap, Bool.or_eq_true, beq_iff_eq] at hgap
        rcases hgap with ((hc | hc) | hc) | hc <;> rw [hc] at h <;> cases h

theorem readValue_number (budget : Nat) {c : Char} (h : c = '-' ∨ isDigit c = true)
    (rest : List Char) : readValue (budget + 1) (c :: rest) = readNumber (c :: rest) := by
  unfold readValue
  rw [skipGap_cons (not_isGap_of_number h)]
  split
  · rename_i heq
    cases heq
    rcases h with h | h <;> cases h
  · rename_i heq
    cases heq
    rcases h with h | h <;> cases h
  · rename_i heq
    cases heq
    rcases h with h | h <;> cases h
  · rename_i heq
    cases heq
    rcases h with h | h <;> cases h
  · rename_i heq
    cases heq
    rcases h with h | h <;> cases h
  · rename_i heq
    cases heq
    rcases h with h | h <;> cases h
  · rfl

theorem readValue_of_readNumber {text rest : List Char} {value : Json}
    (h : readNumber text = some (value, [])) (hrest : Closes rest) (budget : Nat) :
    readValue (budget + 1) (text ++ rest) = some (value, rest) := by
  rcases readNumber_head h with ⟨c, tail, htext, hhead⟩
  have happend := readNumber_append h hrest
  subst htext
  rw [List.cons_append] at happend ⊢
  rw [readValue_number budget hhead, happend]
  rfl

theorem closes_comma (rest : List Char) : Closes (',' :: rest) :=
  closes_cons (Or.inl rfl)

theorem closes_bracket (rest : List Char) : Closes (']' :: rest) :=
  closes_cons (Or.inr (Or.inl rfl))

theorem closes_brace (rest : List Char) : Closes ('\x7d' :: rest) :=
  closes_cons (Or.inr (Or.inr rfl))

theorem print_head (value : Json) (h : value.Readable) :
    exists c rest, value.print = c :: rest ∧ isGap c = false ∧ c ≠ ']' := by
  have hnumber : forall {text : List Char} {found : Json × List Char},
      readNumber text = some found ->
      exists c rest, text = c :: rest ∧ isGap c = false ∧ c ≠ ']' := by
    intro text found hread
    rcases readNumber_head hread with ⟨c, rest, htext, hhead⟩
    refine ⟨c, rest, htext, not_isGap_of_number hhead, ?_⟩
    intro hc
    subst hc
    rcases hhead with hc | hc <;> cases hc
  cases value with
  | null => exact ⟨'n', _, rfl, rfl, by decide⟩
  | bool value =>
      cases value with
      | true => exact ⟨'t', _, rfl, rfl, by decide⟩
      | false => exact ⟨'f', _, rfl, rfl, by decide⟩
  | int value => exact hnumber (readNumber_printInt h)
  | float value => exact hnumber h
  | string value => exact ⟨'"', _, rfl, rfl, by decide⟩
  | array items => exact ⟨'[', _, rfl, rfl, by decide⟩
  | object fields => exact ⟨'\x7b', _, rfl, rfl, by decide⟩

/-!
# Steps of the reader
-/

theorem readValue_string (budget : Nat) (rest : List Char) :
    readValue (budget + 1) ('"' :: rest) =
      (readString rest).map fun (value, after) => (.string (String.ofList value), after) := by
  rfl

theorem readValue_bracket (budget : Nat) (text : List Char) :
    readValue (budget + 1) ('[' :: text) =
      match skipGap text with
      | ']' :: after => some (.array [], after)
      | rest => (readItems budget rest).map fun (items, after) => (.array items, after) := by
  rfl

theorem readValue_array (budget : Nat) {c : Char} (hgap : isGap c = false) (hc : c ≠ ']')
    (rest : List Char) :
    readValue (budget + 1) ('[' :: c :: rest) =
      (readItems budget (c :: rest)).map fun (items, after) => (.array items, after) := by
  rw [readValue_bracket, skipGap_cons hgap]
  split
  · rename_i heq
    cases heq
    exact absurd rfl hc
  · rfl

theorem readValue_object (budget : Nat) (rest : List Char) :
    readValue (budget + 1) ('\x7b' :: '"' :: rest) =
      (readFields budget ('"' :: rest)).map fun (fields, after) => (.object fields, after) := by
  rfl

theorem readItems_last {budget : Nat} {text after : List Char} {item : Json}
    (h : readValue budget text = some (item, ']' :: after)) :
    readItems (budget + 1) text = some ([item], after) := by
  unfold readItems
  rw [h]
  rfl

theorem readItems_more {budget : Nat} {text rest after : List Char} {item : Json}
    {items : List Json} (h : readValue budget text = some (item, ',' :: rest))
    (hrest : readItems budget rest = some (items, after)) :
    readItems (budget + 1) text = some (item :: items, after) := by
  unfold readItems
  rw [h]
  change (readItems budget rest).map _ = _
  rw [hrest]
  rfl

def readField (budget : Nat) (name text : List Char) :
    Option (List (String × Json) × List Char) :=
  match readValue budget text with
  | none => none
  | some (value, rest) =>
      match skipGap rest with
      | '\x7d' :: after => some ([(String.ofList name, value)], after)
      | ',' :: rest =>
          (readFields budget rest).map fun (fields, after) =>
            ((String.ofList name, value) :: fields, after)
      | _ => none

theorem readFields_quote (budget : Nat) (text : List Char) :
    readFields (budget + 1) ('"' :: text) =
      match readString text with
      | none => none
      | some (name, rest) =>
          match skipGap rest with
          | ':' :: rest => readField budget name rest
          | _ => none := by
  rfl

theorem readFields_name {budget : Nat} {text tail name : List Char}
    (h : readString text = some (name, ':' :: tail)) :
    readFields (budget + 1) ('"' :: text) = readField budget name tail := by
  rw [readFields_quote, h]
  rfl

theorem readField_last {budget : Nat} {text after name : List Char} {value : Json}
    (h : readValue budget text = some (value, '\x7d' :: after)) :
    readField budget name text = some ([(String.ofList name, value)], after) := by
  unfold readField
  rw [h]
  rfl

theorem readField_more {budget : Nat} {text rest after name : List Char} {value : Json}
    {fields : List (String × Json)} (h : readValue budget text = some (value, ',' :: rest))
    (hrest : readFields budget rest = some (fields, after)) :
    readField budget name text = some ((String.ofList name, value) :: fields, after) := by
  unfold readField
  rw [h]
  change (readFields budget rest).map _ = _
  rw [hrest]
  rfl

/-!
# Whole values
-/

theorem print_length_pos (value : Json) (h : value.Readable) : 0 < value.print.length := by
  rcases print_head value h with ⟨c, rest, hprint, _, _⟩
  rw [hprint]
  exact Nat.succ_pos _

theorem printFields_last (name : String) (value : Json) (rest : List Char) :
    printFields [(name, value)] ++ rest =
      '"' :: (escapeAll name.toList ++ '"' :: ':' :: (value.print ++ '\x7d' :: rest)) := by
  simp [printFields, printString]

theorem printFields_more (name : String) (value : Json) (next : String × Json)
    (more : List (String × Json)) (rest : List Char) :
    printFields ((name, value) :: next :: more) ++ rest =
      '"' :: (escapeAll name.toList ++ '"' :: ':' ::
        (value.print ++ ',' :: (printFields (next :: more) ++ rest))) := by
  simp [printFields, printString]

mutual

theorem readValue_print : (value : Json) -> value.Readable -> forall (budget : Nat)
    (rest : List Char), value.print.length ≤ budget -> Closes rest ->
    readValue budget (value.print ++ rest) = some (value, rest)
  | value, h, 0, rest, hbudget, hrest => by
      have hpos := print_length_pos value h
      omega
  | .null, _, budget + 1, rest, _, _ => by
      rfl
  | .bool true, _, budget + 1, rest, _, _ => by
      rfl
  | .bool false, _, budget + 1, rest, _, _ => by
      rfl
  | .int value, h, budget + 1, rest, _, hrest => by
      rw [print]
      exact readValue_of_readNumber (readNumber_printInt h) hrest budget
  | .float value, h, budget + 1, rest, _, hrest => by
      rw [print]
      exact readValue_of_readNumber h hrest budget
  | .string value, _, budget + 1, rest, _, _ => by
      have hread := readString_escapeAll value.toList rest
      rw [print, printString, List.cons_append, List.cons_append, List.append_assoc,
        readValue_string]
      change (readString (escapeAll value.toList ++ '"' :: rest)).map _ = _
      rw [hread]
      simp
  | .array [], _, budget + 1, rest, _, _ => by
      rfl
  | .array (item :: more), h, budget + 1, rest, hbudget, _ => by
      rw [print] at hbudget ⊢
      have hlength : (printItems (item :: more)).length ≤ budget :=
        Nat.le_of_succ_le_succ hbudget
      have hitems := readItems_print (item :: more) h (by simp) budget rest hlength
      have hhead : exists c tail, printItems (item :: more) = c :: tail ∧ isGap c = false ∧
          c ≠ ']' := by
        rcases print_head item h.left with ⟨c, tail, hprint, hgap, hc⟩
        cases more with
        | nil => exact ⟨c, tail ++ [']'], by rw [printItems, hprint]; rfl, hgap, hc⟩
        | cons next more =>
            exact ⟨c, tail ++ ',' :: printItems (next :: more),
              by rw [printItems, hprint]; rfl, hgap, hc⟩
      rcases hhead with ⟨c, tail, hprint, hgap, hc⟩
      rw [hprint, List.cons_append] at hitems
      rw [hprint, List.cons_append, List.cons_append, readValue_array budget hgap hc, hitems]
      rfl
  | .object [], _, budget + 1, rest, _, _ => by
      rfl
  | .object (field :: more), h, budget + 1, rest, hbudget, _ => by
      rw [print] at hbudget ⊢
      have hlength : (printFields (field :: more)).length ≤ budget :=
        Nat.le_of_succ_le_succ hbudget
      have hfields := readFields_print (field :: more) h (by simp) budget rest hlength
      have hhead : exists tail, printFields (field :: more) = '"' :: tail := by
        cases more with
        | nil => exact ⟨_, rfl⟩
        | cons next more => exact ⟨_, rfl⟩
      rcases hhead with ⟨tail, hprint⟩
      rw [hprint, List.cons_append] at hfields
      rw [hprint, List.cons_append, List.cons_append, readValue_object, hfields]
      rfl

theorem readItems_print : (items : List Json) -> ReadableItems items -> items ≠ [] ->
    forall (budget : Nat) (rest : List Char), (printItems items).length ≤ budget ->
    readItems budget (printItems items ++ rest) = some (items, rest)
  | [], _, hne, _, _, _ => absurd rfl hne
  | [item], h, _, budget, rest, hbudget => by
      rw [printItems, List.length_append, List.length_singleton] at hbudget
      rw [printItems, List.append_assoc]
      cases budget with
      | zero => omega
      | succ budget =>
          exact readItems_last (readValue_print item h.left budget (']' :: rest) (by omega)
            (closes_bracket rest))
  | item :: next :: more, h, _, budget, rest, hbudget => by
      rw [printItems, List.length_append, List.length_cons] at hbudget
      rw [printItems, List.append_assoc, List.cons_append]
      cases budget with
      | zero => omega
      | succ budget =>
          exact readItems_more
            (readValue_print item h.left budget (',' :: (printItems (next :: more) ++ rest))
              (by omega) (closes_comma _))
            (readItems_print (next :: more) h.right (by simp) budget rest (by omega))

theorem readFields_print : (fields : List (String × Json)) -> ReadableFields fields ->
    fields ≠ [] -> forall (budget : Nat) (rest : List Char),
    (printFields fields).length ≤ budget ->
    readFields budget (printFields fields ++ rest) = some (fields, rest)
  | [], _, hne, _, _, _ => absurd rfl hne
  | [(name, value)], h, _, budget, rest, hbudget => by
      have hname := readString_escapeAll name.toList (':' :: (value.print ++ '\x7d' :: rest))
      have hlength : value.print.length + 1 ≤ budget := by
        simp only [printFields, List.length_append, List.length_cons] at hbudget
        omega
      cases budget with
      | zero => omega
      | succ budget =>
          rw [printFields_last, readFields_name hname, readField_last
            (readValue_print value h.left budget _ (by omega) (closes_brace rest)),
            String.ofList_toList]
  | (name, value) :: next :: more, h, _, budget, rest, hbudget => by
      have hname := readString_escapeAll name.toList
        (':' :: (value.print ++ ',' :: (printFields (next :: more) ++ rest)))
      have hlength : value.print.length + (printFields (next :: more)).length + 1 ≤ budget := by
        simp only [printFields, List.length_append, List.length_cons] at hbudget ⊢
        omega
      cases budget with
      | zero => omega
      | succ budget =>
          rw [printFields_more, readFields_name hname, readField_more
            (readValue_print value h.left budget _ (by omega) (closes_comma _))
            (readFields_print (next :: more) h.right (by simp) budget rest (by omega)),
            String.ofList_toList]

end

theorem ofText?_toText {value : Json} (h : value.Readable) :
    ofText? value.toText = some value := by
  have hread := readValue_print value h (2 * value.print.length + 2) [] (by omega) closes_nil
  rw [List.append_nil] at hread
  unfold ofText? toText read?
  rw [String.toList_ofList, hread]
  rfl

end Json
end LessonPress

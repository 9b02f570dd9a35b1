import LessonPress.Document.Basic
import LessonPress.Document.ParseError
import LessonPress.Text.Letters
import LessonPress.Text.Lines
import LessonPress.Text.Quoted

/-!
# Reading opening tags

## Names and attributes, over as many lines as they take

A tag is read from the text that starts at its line and goes on to the end of the
surrounding block.  The reader keeps the rest of the text and the number of the
line that the rest starts on.
-/

namespace LessonPress

structure Cursor where
  rest : List Char
  line : Nat
deriving DecidableEq, Inhabited

namespace Cursor

open Text

def lineFeeds (text : List Char) : Nat :=
  text.count '\n'

def skipBlanks (cursor : Cursor) : Cursor :=
  ⟨cursor.rest.dropWhile isBlank, cursor.line + lineFeeds (cursor.rest.takeWhile isBlank)⟩

def readName (text : List Char) : Option (List Char × List Char) :=
  match text with
  | [] => none
  | c :: rest =>
      if isNameStart c then
        some (c :: rest.takeWhile isNamePart, rest.dropWhile isNamePart)
      else
        none

/-!
# Values
-/

/-- The inside of an expression and what follows its closing brace.  The depth
counts the braces that are open inside; braces between quotation marks do not
count. -/
def readExpression : Nat -> Option Char -> List Char -> Option (List Char × List Char)
  | _, _, [] => none
  | depth, some quote, c :: rest =>
      let inside := if c = quote then none else some quote
      (readExpression depth inside rest).map fun (inner, after) => (c :: inner, after)
  | depth, none, c :: rest =>
      if c = '\x7b' then
        (readExpression (depth + 1) none rest).map fun (inner, after) => (c :: inner, after)
      else if c = '\x7d' then
        match depth with
        | 0 => some ([], rest)
        | depth + 1 =>
            (readExpression depth none rest).map fun (inner, after) => (c :: inner, after)
      else
        let inside := if c = '"' ∨ c = '\'' ∨ c = '`' then some c else none
        (readExpression depth inside rest).map fun (inner, after) => (c :: inner, after)

def readValue (name : String) (cursor : Cursor) :
    Except ParseError (AttributeValue × Cursor) :=
  match cursor.rest with
  | [] => .error ⟨cursor.line, .unquotedValue name⟩
  | c :: rest =>
      if c = '"' ∨ c = '\'' then
        match cutAt c rest with
        | none => .error ⟨cursor.line, .unterminatedString name⟩
        | some (inner, after) =>
            .ok (.string (String.ofList inner), ⟨after, cursor.line + lineFeeds inner⟩)
      else if c = '\x7b' then
        match readExpression 0 none rest with
        | none => .error ⟨cursor.line + lineFeeds rest, .unterminatedExpression name⟩
        | some (inner, after) =>
            .ok (.expression (String.ofList (trim inner)),
              ⟨after, cursor.line + lineFeeds inner⟩)
      else
        .error ⟨cursor.line, .unquotedValue name⟩

/-!
# Attributes
-/

def readAttribute (element : String) (cursor : Cursor) :
    Except ParseError (Attribute × Cursor) :=
  match readName cursor.rest with
  | none =>
      let shown := (cursor.rest.head?.map quoted).getD []
      .error ⟨cursor.line, .strayCharacter (String.ofList shown) element⟩
  | some (name, rest) =>
      let name := String.ofList name
      let cursor := skipBlanks ⟨rest, cursor.line⟩
      match cursor.rest with
      | '=' :: rest =>
          match readValue name (skipBlanks ⟨rest, cursor.line⟩) with
          | .error cause => .error cause
          | .ok (value, cursor) => .ok (⟨name, value⟩, cursor)
      | _ => .ok (⟨name, .bare⟩, cursor)

/-!
An attribute is not empty, so reading it makes the rest shorter.
-/

theorem length_skipBlanks_le (cursor : Cursor) :
    cursor.skipBlanks.rest.length ≤ cursor.rest.length :=
  (List.dropWhile_sublist isBlank).length_le

theorem length_lt_of_readName {text name rest : List Char}
    (h : readName text = some (name, rest)) : rest.length < text.length := by
  cases text with
  | nil => cases h
  | cons c tail =>
      unfold readName at h
      dsimp only at h
      split at h
      · cases h
        exact Nat.lt_succ_of_le (List.dropWhile_sublist isNamePart).length_le
      · cases h

theorem length_le_of_cutAt {separator : Char} {text before after : List Char}
    (h : cutAt separator text = some (before, after)) : after.length ≤ text.length := by
  induction text generalizing before with
  | nil => cases h
  | cons c rest ih =>
      unfold cutAt at h
      split at h
      · cases h
        exact Nat.le_succ _
      · rw [Option.map_eq_some_iff] at h
        obtain ⟨⟨inner, tail⟩, htail, heq⟩ := h
        cases heq
        exact Nat.le_succ_of_le (ih htail)

theorem length_le_of_readExpression {depth : Nat} {quote : Option Char}
    {text inner after : List Char}
    (h : readExpression depth quote text = some (inner, after)) :
    after.length ≤ text.length := by
  induction text generalizing depth quote inner with
  | nil => cases quote <;> cases h
  | cons c rest ih =>
      have hmap : forall {depth : Nat} {quote : Option Char},
          (readExpression depth quote rest).map (fun (inner, after) => (c :: inner, after)) =
            some (inner, after) -> after.length ≤ (c :: rest).length := by
        intro depth quote hrest
        rw [Option.map_eq_some_iff] at hrest
        obtain ⟨⟨body, tail⟩, htail, heq⟩ := hrest
        cases heq
        exact Nat.le_succ_of_le (ih htail)
      cases quote with
      | some quote => exact hmap h
      | none =>
          unfold readExpression at h
          split at h
          · exact hmap h
          · split at h
            · cases depth with
              | zero =>
                  cases h
                  exact Nat.le_succ _
              | succ depth => exact hmap h
            · exact hmap h

theorem length_le_of_readValue {name : String} {cursor next : Cursor} {value : AttributeValue}
    (h : readValue name cursor = .ok (value, next)) :
    next.rest.length ≤ cursor.rest.length := by
  unfold readValue at h
  split at h
  · cases h
  · rename_i c rest hrest
    rw [hrest]
    split at h
    · split at h
      · cases h
      · rename_i hcut
        cases h
        exact Nat.le_succ_of_le (length_le_of_cutAt hcut)
    · split at h
      · split at h
        · cases h
        · rename_i hread
          cases h
          exact Nat.le_succ_of_le (length_le_of_readExpression hread)
      · cases h

theorem length_lt_of_readAttribute {element : String} {cursor next : Cursor}
    {entry : Attribute} (h : readAttribute element cursor = .ok (entry, next)) :
    next.rest.length < cursor.rest.length := by
  unfold readAttribute at h
  split at h
  · cases h
  · rename_i name rest hname
    have hshorter := length_lt_of_readName hname
    have hskip := length_skipBlanks_le ⟨rest, cursor.line⟩
    dsimp only at h hskip
    split at h
    · rename_i tail htail
      rw [htail] at hskip
      have hagain := length_skipBlanks_le ⟨tail, (skipBlanks ⟨rest, cursor.line⟩).line⟩
      split at h
      · cases h
      · rename_i hvalue
        cases h
        have hle := length_le_of_readValue hvalue
        simp only [List.length_cons] at hskip
        dsimp only at hagain
        omega
    · cases h
      exact Nat.lt_of_le_of_lt hskip hshorter

/-!
# Tags
-/

/-- The attributes from the cursor to the end of the tag, whether the tag closes
itself, and where the text goes on.  A tag without an end is reported on the line
that it starts on. -/
def readAttributes (element : String) (firstLine : Nat) (cursor : Cursor) :
    Except ParseError (List Attribute × Bool × Cursor) :=
  match cursor.skipBlanks.rest with
  | [] => .error ⟨firstLine, .unterminatedTag element⟩
  | '/' :: '>' :: rest => .ok ([], true, ⟨rest, cursor.skipBlanks.line⟩)
  | '/' :: rest =>
      .error ⟨cursor.skipBlanks.line + lineFeeds (rest.take 1), .brokenSlash element⟩
  | '>' :: rest => .ok ([], false, ⟨rest, cursor.skipBlanks.line⟩)
  | _ :: _ =>
      match _ : readAttribute element cursor.skipBlanks with
      | .error cause => .error cause
      | .ok (entry, next) =>
          match readAttributes element firstLine next with
          | .error cause => .error cause
          | .ok (entries, selfClosing, after) => .ok (entry :: entries, selfClosing, after)
termination_by cursor.rest.length
decreasing_by
  exact Nat.lt_of_lt_of_le (length_lt_of_readAttribute (by assumption))
    (length_skipBlanks_le cursor)

def readTag (cursor : Cursor) : Except ParseError (Tag × Cursor) :=
  let name := String.ofList (cursor.rest.takeWhile isNamePart)
  let start : Cursor := ⟨cursor.rest.dropWhile isNamePart, cursor.line⟩
  match readAttributes name cursor.line start with
  | .error cause => .error cause
  | .ok (entries, selfClosing, after) => .ok (⟨name, entries, selfClosing⟩, after)

end Cursor
end LessonPress

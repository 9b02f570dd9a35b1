import LessonPress.Diff.Basic
import LessonPress.Json.Shape

/-!
# Rendered diffs as JSON

## Writing blocks and reading them back
-/

namespace LessonPress

open Json (FieldRule record required nullable asString asBool)

namespace StyledText

def fields (piece : StyledText) : List (String × Json) :=
  [("text", .string piece.text), ("style", Json.optional .string piece.style)]

def toJson (piece : StyledText) : Json :=
  .object piece.fields

def ofJson? (value : Json) : Option StyledText :=
  match record [{ name := "text" }, { name := "style" }] value with
  | some [text, style] => do
      let text ← required asString text
      let style ← nullable asString style
      some ⟨text, style⟩
  | _ => none

end StyledText

namespace InlineMark

def name : InlineMark -> String
  | added => "added-inline"
  | removed => "removed-inline"

def ofJson? (value : Json) : Option InlineMark :=
  match Json.asVariant value with
  | some name =>
      if name = "added-inline" then some added
      else if name = "removed-inline" then some removed
      else none
  | none => none

end InlineMark

namespace Fragment

def toJson : Fragment -> Json
  | text piece => .object (("type", .string "text") :: piece.fields)
  | mark kind pieces =>
      .object
        [("type", .string "mark"), ("mark", .string kind.name),
          ("children", Json.list StyledText.toJson pieces)]

def readMark (content : Json) : Option Fragment :=
  match record [{ name := "mark" }, { name := "children" }] content with
  | some [kind, pieces] => do
      let kind ← required InlineMark.ofJson? kind
      let pieces ← required (Json.asList StyledText.ofJson?) pieces
      some (mark kind pieces)
  | _ => none

def ofJson? (value : Json) : Option Fragment :=
  match Json.tagged "type" value with
  | none => none
  | some (kind, content) =>
      if kind = "text" then (StyledText.ofJson? content).map text
      else if kind = "mark" then readMark content
      else none

end Fragment

namespace ChangeKind

def name : ChangeKind -> String
  | add => "add"
  | remove => "remove"
  | context => "context"

def ofName? (name : String) : Option ChangeKind :=
  if name = "add" then some add
  else if name = "remove" then some remove
  else if name = "context" then some context
  else none

def ofJson? (value : Json) : Option ChangeKind :=
  (Json.asVariant value).bind ofName?

end ChangeKind

namespace DiffLine

def toJson (line : DiffLine) : Json :=
  .object
    [("kind", .string line.kind.name),
      ("fragments", Json.list Fragment.toJson line.fragments),
      ("terminator", .string line.terminator)]

def ofJson? (value : Json) : Option DiffLine :=
  match record [{ name := "kind" }, { name := "fragments" }, { name := "terminator" }] value with
  | some [kind, fragments, terminator] => do
      let kind ← required ChangeKind.ofJson? kind
      let fragments ← required (Json.asList Fragment.ofJson?) fragments
      let terminator ← required asString terminator
      some ⟨kind, fragments, terminator⟩
  | _ => none

end DiffLine

namespace DiffBlock

def toJson (block : DiffBlock) : Json :=
  .object
    [("hasAdditions", .bool block.hasAdditions),
      ("hasRemovals", .bool block.hasRemovals),
      ("language", Json.optional .string block.language),
      ("lines", Json.list DiffLine.toJson block.lines)]

def fieldRules : List FieldRule :=
  [{ name := "hasAdditions" }, { name := "hasRemovals" }, { name := "language" },
    { name := "lines" }]

def ofJson? (value : Json) : Option DiffBlock :=
  match record fieldRules value with
  | some [hasAdditions, hasRemovals, language, lines] => do
      let hasAdditions ← required asBool hasAdditions
      let hasRemovals ← required asBool hasRemovals
      let language ← nullable asString language
      let lines ← required (Json.asList DiffLine.ofJson?) lines
      some ⟨hasAdditions, hasRemovals, language, lines⟩
  | _ => none

end DiffBlock
end LessonPress

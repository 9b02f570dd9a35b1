import LessonPress.Document.Basic
import LessonPress.Json.Shape
import LessonPress.Range.Encoding

/-!
# Documents as JSON

## Writing a tree and reading it back

A node names its kind in the field `type` of its own record.  An attribute value
stands beside its kind, and a code block without an excerpt has no field for one.
-/

namespace LessonPress

open Json (FieldRule record required nullable defaulted asString asBool asWord)

namespace Position

def toJson (position : Position) : Json :=
  .object [("startLine", .nat position.startLine), ("endLine", .nat position.endLine)]

def ofJson? (value : Json) : Option Position :=
  match record [{ name := "startLine" }, { name := "endLine" }] value with
  | some [startLine, endLine] => do
      let startLine ← required asWord startLine
      let endLine ← required asWord endLine
      some ⟨startLine, endLine⟩
  | _ => none

end Position

/-!
# Attributes
-/

namespace AttributeValue

def toJson : AttributeValue -> Json
  | string text => .object [("kind", .string "string"), ("value", .string text)]
  | expression text => .object [("kind", .string "expression"), ("value", .string text)]
  | bare => .object [("kind", .string "bare")]

def ofJson? (value : Json) : Option AttributeValue :=
  match Json.adjacent "kind" "value" value with
  | none => none
  | some (kind, content) =>
      if kind = "string" then (required asString content).map string
      else if kind = "expression" then (required asString content).map expression
      else if kind = "bare" then
        match content with
        | none => some bare
        | some .null => some bare
        | some _ => none
      else none

end AttributeValue

namespace Attribute

def toJson (entry : Attribute) : Json :=
  .object [("name", .string entry.name), ("value", entry.value.toJson)]

def ofJson? (value : Json) : Option Attribute :=
  match record [{ name := "name" }, { name := "value" }] value with
  | some [name, content] => do
      let name ← required asString name
      let content ← required AttributeValue.ofJson? content
      some ⟨name, content⟩
  | _ => none

end Attribute

/-!
# Code blocks
-/

namespace ExcerptMeta

def toJson (excerpt : ExcerptMeta) : Json :=
  .object
    [("fileName", .string excerpt.fileName),
      ("startLine", .nat excerpt.startLine),
      ("highlight", RangeList.toJson excerpt.highlight),
      ("showLineNumbers", .bool excerpt.showLineNumbers),
      ("allowCopy", .bool excerpt.allowCopy),
      ("buttons", Json.list Button.toJson excerpt.buttons)]

def fieldRules : List FieldRule :=
  [{ name := "fileName" }, { name := "startLine" }, { name := "highlight" },
    { name := "showLineNumbers" }, { name := "allowCopy" }, { name := "buttons" }]

def ofJson? (value : Json) : Option ExcerptMeta :=
  match record fieldRules value with
  | some [fileName, startLine, highlight, showLineNumbers, allowCopy, buttons] => do
      let fileName ← required asString fileName
      let startLine ← required asWord startLine
      let highlight ← required RangeList.ofJson? highlight
      let showLineNumbers ← required asBool showLineNumbers
      let allowCopy ← required asBool allowCopy
      let buttons ← required (Json.asList Button.ofJson?) buttons
      some ⟨fileName, startLine, highlight, showLineNumbers, allowCopy, buttons⟩
  | _ => none

end ExcerptMeta

namespace CodeBlock

def fields (block : CodeBlock) : List (String × Json) :=
  [("lang", Json.optional .string block.lang),
    ("meta", Json.optional .string block.info),
    ("value", .string block.value),
    ("position", Json.optional Position.toJson block.position)] ++
  match block.excerpt with
  | none => []
  | some excerpt => [("excerpt", excerpt.toJson)]

def fieldRules : List FieldRule :=
  [{ name := "lang" }, { name := "meta" }, { name := "value" }, { name := "position" },
    { name := "excerpt", mayEnd := true }]

def ofJson? (value : Json) : Option CodeBlock :=
  match record fieldRules value with
  | some [lang, info, content, position, excerpt] => do
      let lang ← nullable asString lang
      let info ← nullable asString info
      let content ← required asString content
      let position ← nullable Position.ofJson? position
      let excerpt ← nullable ExcerptMeta.ofJson? excerpt
      some ⟨lang, info, content, position, excerpt⟩
  | _ => none

end CodeBlock

/-!
# Diagnostics
-/

namespace Severity

def name : Severity -> String
  | error => "error"
  | warning => "warning"

def ofJson? (value : Json) : Option Severity :=
  match Json.asVariant value with
  | some name =>
      if name = "error" then some error
      else if name = "warning" then some warning
      else none
  | none => none

end Severity

namespace SourceExcerpt

def toJson (excerpt : SourceExcerpt) : Json :=
  .object [("startLine", .nat excerpt.startLine), ("text", .string excerpt.text)]

def ofJson? (value : Json) : Option SourceExcerpt :=
  match record [{ name := "startLine" }, { name := "text" }] value with
  | some [startLine, text] => do
      let startLine ← required asWord startLine
      let text ← required asString text
      some ⟨startLine, text⟩
  | _ => none

end SourceExcerpt

namespace Diagnostic

def fields (content : Diagnostic) : List (String × Json) :=
  [("severity", .string content.severity.name),
    ("title", .string content.title),
    ("messages", Json.strings content.messages),
    ("excerpt", Json.optional SourceExcerpt.toJson content.excerpt)]

def fieldRules : List FieldRule :=
  [{ name := "severity" }, { name := "title" }, { name := "messages" }, { name := "excerpt" }]

def ofJson? (value : Json) : Option Diagnostic :=
  match record fieldRules value with
  | some [severity, title, messages, excerpt] => do
      let severity ← required Severity.ofJson? severity
      let title ← required asString title
      let messages ← required (Json.asList asString) messages
      let excerpt ← nullable SourceExcerpt.ofJson? excerpt
      some ⟨severity, title, messages, excerpt⟩
  | _ => none

end Diagnostic

/-!
# Nodes
-/

namespace Node

def tagged (kind : String) (fields : List (String × Json)) : Json :=
  .object (("type", .string kind) :: fields)

mutual

def toJson : Node -> Json
  | heading depth text position =>
      tagged "heading"
        [("depth", .nat depth), ("text", .string text), ("position", position.toJson)]
  | paragraph text position =>
      tagged "paragraph" [("text", .string text), ("position", position.toJson)]
  | html value position =>
      tagged "html" [("value", .string value), ("position", position.toJson)]
  | thematicBreak position => tagged "thematicBreak" [("position", position.toJson)]
  | code block => tagged "code" block.fields
  | element tag children position =>
      tagged "element"
        [("name", .string tag.name),
          ("attributes", Json.list Attribute.toJson tag.attributes),
          ("children", .array (listToJson children)),
          ("selfClosing", .bool tag.selfClosing),
          ("position", position.toJson)]
  | diagnostic content => tagged "diagnostic" content.fields

def listToJson : List Node -> List Json
  | [] => []
  | node :: rest => node.toJson :: listToJson rest

end

def readHeading (content : Json) : Option Node :=
  match record [{ name := "depth" }, { name := "text" }, { name := "position" }] content with
  | some [depth, text, position] => do
      let depth ← required (Json.asNat 256) depth
      let text ← required asString text
      let position ← required Position.ofJson? position
      some (heading depth text position)
  | _ => none

/-- A node of a text and its place, with the name of the field that the text is in. -/
def readText (field : String) (node : String -> Position -> Node) (content : Json) :
    Option Node :=
  match record [{ name := field }, { name := "position" }] content with
  | some [text, position] => do
      let text ← required asString text
      let position ← required Position.ofJson? position
      some (node text position)
  | _ => none

def readThematicBreak (content : Json) : Option Node :=
  match record [{ name := "position" }] content with
  | some [position] => (required Position.ofJson? position).map thematicBreak
  | _ => none

def elementRules : List FieldRule :=
  [{ name := "name" }, { name := "attributes" }, { name := "children" },
    { name := "selfClosing" }, { name := "position" }]

def readElement (readChild : Json -> Option Node) (content : Json) : Option Node :=
  match record elementRules content with
  | some [name, entries, children, selfClosing, position] => do
      let name ← required asString name
      let entries ← required (Json.asList Attribute.ofJson?) entries
      let children ← required (Json.asList readChild) children
      let selfClosing ← required asBool selfClosing
      let position ← required Position.ofJson? position
      some (element ⟨name, entries, selfClosing⟩ children position)
  | _ => none

def read : Nat -> Json -> Option Node
  | 0, _ => none
  | levels + 1, value =>
      match Json.tagged "type" value with
      | none => none
      | some (kind, content) =>
          if kind = "heading" then readHeading content
          else if kind = "paragraph" then readText "text" paragraph content
          else if kind = "html" then readText "value" html content
          else if kind = "thematicBreak" then readThematicBreak content
          else if kind = "code" then (CodeBlock.ofJson? content).map code
          else if kind = "element" then readElement (read levels) content
          else if kind = "diagnostic" then (Diagnostic.ofJson? content).map diagnostic
          else none

def ofJson? (value : Json) : Option Node :=
  read value.height value

end Node

/-!
# Documents
-/

namespace Document

def frontmatterJson (frontmatter : SortedMap String) : Json :=
  .object (frontmatter.entries.map fun entry => (entry.1, .string entry.2))

def readFrontmatter : Json -> Option (SortedMap String)
  | .object fields =>
      (Json.allSome (fields.map fun entry => (asString entry.2).map (entry.1, ·))).map
        SortedMap.ofList
  | _ => none

def toJson (document : Document) : Json :=
  .object
    [("frontmatter", frontmatterJson document.frontmatter),
      ("children", .array (Node.listToJson document.children))]

def ofJson? (value : Json) : Option Document :=
  match record [{ name := "frontmatter" }, { name := "children" }] value with
  | some [frontmatter, children] => do
      let frontmatter ← required readFrontmatter frontmatter
      let children ← required (Json.asList Node.ofJson?) children
      some ⟨frontmatter, children⟩
  | _ => none

end Document
end LessonPress

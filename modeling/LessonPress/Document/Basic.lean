import LessonPress.Excerpt.Button
import LessonPress.Map.Sorted
import LessonPress.Range.RangeList
import LessonPress.Text.Blank

/-!
# Documents

## Frontmatter and a tree of blocks

A document is a map of frontmatter values and a list of block nodes.  Only
elements have children, so a tree is walked by following elements.
-/

namespace LessonPress

/-- An inclusive span of lines in the document, counted from one. -/
structure Position where
  startLine : Nat
  endLine : Nat
deriving DecidableEq, Inhabited

namespace Position

def line (n : Nat) : Position :=
  ⟨n, n⟩

end Position

structure ExcerptMeta where
  fileName : String
  startLine : Nat
  highlight : List LineRange
  showLineNumbers : Bool
  allowCopy : Bool
  buttons : List Button
deriving DecidableEq, Inhabited

structure CodeBlock where
  lang : Option String
  info : Option String
  value : String
  position : Option Position
  excerpt : Option ExcerptMeta
deriving DecidableEq, Inhabited

inductive AttributeValue where
  | string (text : String)
  | expression (text : String)
  | bare
deriving DecidableEq, Inhabited

structure Attribute where
  name : String
  value : AttributeValue
deriving DecidableEq, Inhabited

structure Tag where
  name : String
  attributes : List Attribute
  selfClosing : Bool
deriving DecidableEq, Inhabited

inductive Severity where
  | error
  | warning
deriving DecidableEq, Inhabited

structure SourceExcerpt where
  startLine : Nat
  text : String
deriving DecidableEq, Inhabited

structure Diagnostic where
  severity : Severity
  title : String
  messages : List String
  excerpt : Option SourceExcerpt
deriving DecidableEq, Inhabited

inductive Node where
  | heading (depth : Nat) (text : String) (position : Position)
  | paragraph (text : String) (position : Position)
  | html (value : String) (position : Position)
  | thematicBreak (position : Position)
  | code (block : CodeBlock)
  | element (tag : Tag) (children : List Node) (position : Position)
  | diagnostic (content : Diagnostic)
deriving Inhabited

structure Document where
  frontmatter : SortedMap String
  children : List Node
deriving Inhabited

/-!
# The info text of an excerpt
-/

namespace ExcerptMeta

def commaSeparated (items : List String) : String :=
  String.intercalate "," items

def text (excerpt : ExcerptMeta) : String :=
  "filename=\"" ++ excerpt.fileName ++ "\" start=" ++ toString excerpt.startLine ++
    (if excerpt.highlight.isEmpty then ""
      else " lines=" ++ commaSeparated (excerpt.highlight.map LineRange.displayString)) ++
    (if excerpt.showLineNumbers then "" else " nonumber") ++
    (if excerpt.allowCopy then "" else " nocopy") ++
    (if excerpt.buttons.isEmpty then ""
      else " buttons=" ++ commaSeparated (excerpt.buttons.map Button.name))

end ExcerptMeta

/-!
# Attributes
-/

namespace Tag

def attribute? (tag : Tag) (name : String) : Option AttributeValue :=
  (tag.attributes.find? fun entry => entry.name == name).map Attribute.value

end Tag

/-!
# Walking the tree
-/

namespace Node

def kind : Node -> String
  | heading _ _ _ => "heading"
  | paragraph _ _ => "paragraph"
  | html _ _ => "html"
  | thematicBreak _ => "thematicBreak"
  | code _ => "code"
  | element _ _ _ => "element"
  | diagnostic _ => "diagnostic"

mutual

def walk : Node -> List Node
  | element tag children position => element tag children position :: walkAll children
  | node => [node]

def walkAll : List Node -> List Node
  | [] => []
  | node :: rest => node.walk ++ walkAll rest

end

def titleText : Node -> Option String
  | heading 1 text _ => some text
  | _ => none

def videoElements : List String :=
  ["VideoEmbed", "EpicVideo"]

def videoUrl : Node -> Option String
  | element tag _ _ =>
      if videoElements.contains tag.name then
        match tag.attribute? "url" with
        | some (.string url) =>
            if Text.isBlankLine url.toList then none else some (Text.trimmed url)
        | _ => none
      else
        none
  | _ => none

end Node

namespace Document

def title (document : Document) : Option String :=
  document.children.findSome? Node.titleText

def videoUrls (document : Document) : List String :=
  (Node.walkAll document.children).filterMap Node.videoUrl

end Document
end LessonPress

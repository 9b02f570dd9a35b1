import LessonPress.Document.Frontmatter
import LessonPress.Document.LineKind
import LessonPress.Document.TagReader

/-!
# Parsing documents

## Blocks of lines

The parser goes through the lines of a document with the number of the first one.
The first line of a block decides about its kind and so about where it ends; an
element is parsed by parsing the lines between its tags.
-/

namespace LessonPress
namespace Parser

open Text

def textOf (line : List Char) : String :=
  String.ofList line

/-!
# Closing lines
-/

def openingText (name : String) : List Char :=
  '<' :: name.toList

def closingText (name : String) : List Char :=
  ['<', '/'] ++ name.toList ++ ['>']

/-- Whether a line without blanks around it opens another element of the name that
has its closing on a line of its own. -/
def opensNested (name : String) (body : List Char) : Bool :=
  let opening := openingText name
  let follows :=
    match body.drop opening.length with
    | [] => false
    | c :: _ => isBlank c || c == '>'
  startsWith opening body && follows && !endsWith ['/', '>'] body &&
    !endsWith (closingText name) body

/-- The number of lines before the one that closes an element.  Nested elements of
the same name are counted by their depth, and lines inside a fence do not count. -/
def closingIndex (name : String) : Nat -> Option Fence -> List Line -> Option Nat
  | _, _, [] => none
  | depth, some fence, line :: rest =>
      let inside := if fence.closes line then none else some fence
      (closingIndex name depth inside rest).map (· + 1)
  | depth, none, line :: rest =>
      match Fence.ofLine? line with
      | some fence => (closingIndex name depth (some fence) rest).map (· + 1)
      | none =>
          if trim line = closingText name then
            match depth with
            | 0 => some 0
            | depth + 1 => (closingIndex name depth none rest).map (· + 1)
          else if opensNested name (trim line) then
            (closingIndex name (depth + 1) none rest).map (· + 1)
          else
            (closingIndex name depth none rest).map (· + 1)

/-!
# Extents of elements
-/

/-- How far an element reaches: its tag, the number of lines that the tag takes
after the first one, and the number of lines between the tag and the closing line,
or the children that stand on the tag's last line. -/
structure Extent where
  tag : Tag
  tagLines : Nat
  content : Sum (List Node) Nat

def inlineChildren (text : List Char) (line : Nat) : List Node :=
  if isBlankLine text then [] else [.paragraph (textOf (trim text)) (.line line)]

def readExtent (number : Nat) (first : Line) (rest : List Line) :
    Except ParseError Extent :=
  match Cursor.readTag ⟨(joinLines (trimStart first :: rest)).drop 1, number⟩ with
  | .error cause => .error cause
  | .ok (tag, cursor) =>
      let tagLines := cursor.line - number
      let remainder := trim (cursor.rest.takeWhile (· != '\n'))
      if tag.selfClosing then
        if remainder.isEmpty then .ok ⟨tag, tagLines, .inl []⟩
        else .error ⟨cursor.line, .contentAfterTag tag.name⟩
      else if !remainder.isEmpty then
        match stripEnding (closingText tag.name) remainder with
        | none => .error ⟨cursor.line, .missingClosing tag.name⟩
        | some inner => .ok ⟨tag, tagLines, .inl (inlineChildren inner cursor.line)⟩
      else
        match closingIndex tag.name 0 none (rest.drop tagLines) with
        | none => .error ⟨number, .missingClosing tag.name⟩
        | some count => .ok ⟨tag, tagLines, .inr count⟩

/-!
# Blocks
-/

def codeNode (number : Nat) (fence : Fence) (body : List Line) : Node :=
  .code
    { lang := fence.lang
      info := fence.extra
      value := textOf (joinLines (body.map fence.unindent))
      position := some ⟨number, number + body.length + 1⟩
      excerpt := none }

def htmlNode (number : Nat) (block : List Line) : Node :=
  .html (textOf (joinLines block)) ⟨number, number + block.length - 1⟩

def paragraphNode (number : Nat) (block : List Line) : Node :=
  .paragraph (textOf (joinLines (block.map trim))) ⟨number, number + block.length - 1⟩

def isFilled (line : Line) : Bool :=
  !isBlankLine line

def parseBlocks (number : Nat) : List Line -> Except ParseError (List Node)
  | [] => .ok []
  | first :: rest =>
      match LineKind.of first with
      | .blank => parseBlocks (number + 1) rest
      | .fence fence =>
          match fence.bodyLength rest with
          | none => .error ⟨number, .unterminatedFence⟩
          | some count => do
              let more ← parseBlocks (number + count + 2) (rest.drop (count + 1))
              .ok (codeNode number fence (rest.take count) :: more)
      | .heading depth title => do
          let more ← parseBlocks (number + 1) rest
          .ok (.heading depth (textOf title) (.line number) :: more)
      | .thematicBreak => do
          let more ← parseBlocks (number + 1) rest
          .ok (.thematicBreak (.line number) :: more)
      | .html => do
          let block := first :: rest.takeWhile isFilled
          let more ← parseBlocks (number + block.length) (rest.drop (block.length - 1))
          .ok (htmlNode number block :: more)
      | .text => do
          let block := first :: rest.takeWhile LineKind.continuesParagraph
          let more ← parseBlocks (number + block.length) (rest.drop (block.length - 1))
          .ok (paragraphNode number block :: more)
      | .element =>
          match readExtent number first rest with
          | .error cause => .error cause
          | .ok ⟨tag, tagLines, .inl children⟩ => do
              let more ← parseBlocks (number + tagLines + 1) (rest.drop tagLines)
              .ok (.element tag children ⟨number, number + tagLines⟩ :: more)
          | .ok ⟨tag, tagLines, .inr count⟩ => do
              let children ←
                parseBlocks (number + tagLines + 1) ((rest.drop tagLines).take count)
              let more ←
                parseBlocks (number + tagLines + count + 2) (rest.drop (tagLines + count + 1))
              .ok (.element tag children ⟨number, number + tagLines + count + 1⟩ :: more)
termination_by block => block.length
decreasing_by
  all_goals
    simp only [List.length_cons, List.length_drop, List.length_take]
    omega

end Parser

namespace Document

def parse (source : String) : Except ParseError Document :=
  let document := Text.linesOf source
  match Frontmatter.read document with
  | .error cause => .error cause
  | .ok (frontmatter, count) =>
      match Parser.parseBlocks (count + 1) (document.drop count) with
      | .error cause => .error cause
      | .ok children => .ok ⟨frontmatter, children⟩

end Document
end LessonPress

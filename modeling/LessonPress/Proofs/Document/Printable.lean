import LessonPress.Document.LineKind
import LessonPress.Document.Printer
import LessonPress.Proofs.Text.Lines
import LessonPress.Text.Letters

/-!
# Printable documents

## Trees that have a written form

Every text of a printable tree fits into the place where it is printed: it does not go on
where its block ends, it does not start another block, and it has no blanks around it where
they would be lost.
-/

namespace LessonPress

namespace Text

def IsName (text : List Char) : Prop :=
  exists first rest, text = first :: rest ∧ isNameStart first = true ∧
    forall c, c ∈ rest -> isNamePart c = true

/-- Text in which every brace has its partner and every quotation mark is closed; between
quotation marks there may be anything else. -/
inductive Balanced : List Char -> Prop where
  | nil : Balanced []
  | plain {c : Char} {rest : List Char} : c ∉ ['\x7b', '\x7d', '"', '\'', '`'] ->
      Balanced rest -> Balanced (c :: rest)
  | quoted {quote : Char} {inner rest : List Char} : quote ∈ ['"', '\'', '`'] ->
      quote ∉ inner -> Balanced rest -> Balanced (quote :: inner ++ quote :: rest)
  | braces {inner rest : List Char} : Balanced inner -> Balanced rest ->
      Balanced ('\x7b' :: inner ++ '\x7d' :: rest)

/-- A line of a paragraph: it holds more than blanks, and no block starts with it. -/
structure Prose (line : Line) : Prop where
  trimmed : Trimmed line
  filled : isBlankLine line = false
  noTag : line.head? ≠ some '<'
  noFence : Fence.ofLine? line = none
  noHeading : LineKind.headingOf? line = none
  noBreak : LineKind.isThematicBreak line = false

end Text

open Text

structure Frontmatter.Printable (entry : String × String) : Prop where
  trimmed : Trimmed entry.1.toList
  named : entry.1 ≠ ""
  keyLine : '\n' ∉ entry.1.toList
  noColon : ':' ∉ entry.1.toList
  noItem : entry.1.toList.head? ≠ some '-'
  noComment : entry.1.toList.head? ≠ some '#'
  valueLine : '\n' ∉ entry.2.toList

inductive AttributeValue.Printable : AttributeValue -> Prop where
  | string {text : String} : '\n' ∉ text.toList -> '"' ∉ text.toList ∨ '\'' ∉ text.toList ->
      Printable (.string text)
  | expression {text : String} : '\n' ∉ text.toList -> Trimmed text.toList ->
      Balanced text.toList -> Printable (.expression text)
  | bare : Printable .bare

structure Tag.Printable (tag : Tag) : Prop where
  name : exists first rest, tag.name.toList = first :: rest ∧ LineKind.isUpper first = true ∧
    forall c, c ∈ rest -> isNamePart c = true
  attributes : forall entry, entry ∈ tag.attributes ->
    IsName entry.name.toList ∧ entry.value.Printable

structure CodeBlock.Printable (block : CodeBlock) : Prop where
  lang : forall lang, block.lang = some lang -> lang ≠ "" ∧
    forall c, c ∈ lang.toList -> isBlank c = false ∧ c ≠ '`'
  info : forall info, block.info = some info -> block.lang ≠ none ∧ info ≠ "" ∧
    Trimmed info.toList ∧ '\n' ∉ info.toList ∧ '`' ∉ info.toList
  value : '\r' ∉ block.value.toList
  excerpt : block.excerpt = none

inductive Node.Printable : Node -> Prop where
  | heading {depth : Nat} {text : String} (position : Position) : 1 ≤ depth -> depth ≤ 6 ->
      Trimmed text.toList -> '\n' ∉ text.toList -> text.toList.getLast? ≠ some '#' ->
      Printable (.heading depth text position)
  | paragraph {text : String} (position : Position) :
      (forall line, line ∈ splitAt '\n' text.toList -> Prose line) ->
      Printable (.paragraph text position)
  | thematicBreak (position : Position) : Printable (.thematicBreak position)
  | code {block : CodeBlock} : block.Printable -> Printable (.code block)
  | element {tag : Tag} {children : List Node} (position : Position) : tag.Printable ->
      (tag.selfClosing = true -> children = []) ->
      (forall child, child ∈ children -> Printable child) ->
      Printable (.element tag children position)

structure Document.Printable (document : Document) : Prop where
  frontmatter : forall entry, entry ∈ document.frontmatter.entries ->
    Frontmatter.Printable entry
  children : forall node, node ∈ document.children -> node.Printable

/-!
# Positions
-/

namespace Node

mutual

def unplaced : Node -> Node
  | heading depth text _ => heading depth text ⟨0, 0⟩
  | paragraph text _ => paragraph text ⟨0, 0⟩
  | html value _ => html value ⟨0, 0⟩
  | thematicBreak _ => thematicBreak ⟨0, 0⟩
  | code block => code { block with position := none }
  | element tag children _ => element tag (unplacedAll children) ⟨0, 0⟩
  | diagnostic content => diagnostic content

def unplacedAll : List Node -> List Node
  | [] => []
  | node :: rest => node.unplaced :: unplacedAll rest

end

end Node

namespace Printer

def span (number : Nat) (node : Node) : Position :=
  ⟨number, number + (printNode node).length - 1⟩

mutual

def placed (number : Nat) (node : Node) : Node :=
  match node with
  | .heading depth text _ => .heading depth text (span number node)
  | .paragraph text _ => .paragraph text (span number node)
  | .html value _ => .html value (span number node)
  | .thematicBreak _ => .thematicBreak (span number node)
  | .code block => .code { block with position := some (span number node) }
  | .element tag children _ =>
      .element tag (placedAll (number + 1) children) (span number node)
  | .diagnostic content => .diagnostic content

def placedAll (number : Nat) (nodes : List Node) : List Node :=
  match nodes with
  | [] => []
  | node :: rest => placed number node :: placedAll (number + (printNode node).length + 1) rest

end

mutual

theorem unplaced_placed (number : Nat) (node : Node) :
    (placed number node).unplaced = node.unplaced := by
  cases node with
  | element tag children position =>
      rw [placed, Node.unplaced, Node.unplaced, unplacedAll_placedAll]
  | _ => simp only [placed, Node.unplaced]

theorem unplacedAll_placedAll (number : Nat) (nodes : List Node) :
    Node.unplacedAll (placedAll number nodes) = Node.unplacedAll nodes := by
  cases nodes with
  | nil => rw [placedAll]
  | cons node rest =>
      rw [placedAll, Node.unplacedAll, Node.unplacedAll, unplaced_placed, unplacedAll_placedAll]

end

end Printer
end LessonPress

import LessonPress.Document.Basic
import LessonPress.Text.Lines

/-!
# Printing documents

## The plain form of a tree

Every block is followed by a blank line.  Attribute values stand in double quotes
unless they contain one, and a code block gets a fence that is longer than any run
of backticks in it.  A diagnostic has no written form.
-/

namespace LessonPress
namespace Printer

open Text

/-!
# Frontmatter
-/

def frontmatterLine (entry : String × String) : Line :=
  entry.1.toList ++ [':', ' ', '"'] ++ entry.2.toList ++ ['"']

def printFrontmatter (frontmatter : SortedMap String) : List Line :=
  match frontmatter.entries with
  | [] => []
  | entries => ['-', '-', '-'] :: entries.map frontmatterLine ++ [['-', '-', '-']]

/-!
# Tags
-/

def quoteFor (text : List Char) : Char :=
  if text.contains '"' then '\'' else '"'

def printValue : AttributeValue -> List Char
  | .bare => []
  | .string text => '=' :: quoteFor text.toList :: text.toList ++ [quoteFor text.toList]
  | .expression text => ['=', '\x7b'] ++ text.toList ++ ['\x7d']

def printAttribute (entry : Attribute) : List Char :=
  ' ' :: entry.name.toList ++ printValue entry.value

def printTag (tag : Tag) : Line :=
  '<' :: tag.name.toList ++ tag.attributes.flatMap printAttribute ++
    if tag.selfClosing then [' ', '/', '>'] else ['>']

def printClosing (tag : Tag) : Line :=
  ['<', '/'] ++ tag.name.toList ++ ['>']

/-!
# Code
-/

/-- The length of the longest run of a character; `current` is that of the run at
the start. -/
def longestRun (marker : Char) (current : Nat) : List Char -> Nat
  | [] => current
  | c :: rest =>
      if c = marker then longestRun marker (current + 1) rest
      else max current (longestRun marker 0 rest)

def fenceFor (value : List Char) : Line :=
  List.replicate (max 3 (longestRun '`' 0 value + 1)) '`'

def printInfo (block : CodeBlock) : List Char :=
  match block.lang, block.info with
  | none, _ => []
  | some lang, none => lang.toList
  | some lang, some info => lang.toList ++ ' ' :: info.toList

def printCode (block : CodeBlock) : List Line :=
  let value := block.value.toList
  (fenceFor value ++ printInfo block) :: splitAt '\n' value ++ [fenceFor value]

/-!
# Blocks
-/

def printHeading (depth : Nat) (text : String) : Line :=
  if text.isEmpty then List.replicate depth '#'
  else List.replicate depth '#' ++ ' ' :: text.toList

mutual

def printNode : Node -> List Line
  | .heading depth text _ => [printHeading depth text]
  | .paragraph text _ => splitAt '\n' text.toList
  | .html value _ => splitAt '\n' value.toList
  | .thematicBreak _ => [['*', '*', '*']]
  | .code block => printCode block
  | .element tag children _ =>
      if tag.selfClosing then [printTag tag]
      else printTag tag :: printNodes children ++ [printClosing tag]
  | .diagnostic _ => []

def printNodes : List Node -> List Line
  | [] => []
  | node :: rest => printNode node ++ [] :: printNodes rest

end

end Printer

namespace Document

def printLines (document : Document) : List Text.Line :=
  Printer.printFrontmatter document.frontmatter ++ Printer.printNodes document.children

def print (document : Document) : String :=
  String.ofList (document.printLines.flatMap fun line => line ++ ['\n'])

end Document
end LessonPress

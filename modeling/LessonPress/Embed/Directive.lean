import LessonPress.Document.Basic
import LessonPress.Embed.Sources

/-!
# Embed directives

## Checking the attributes of an element that shows another file

A directive is either valid as a whole, or it is refused with all of its faults in
the order in which the attributes are checked.
-/

namespace LessonPress

inductive DirectiveFault where
  | unknownAttribute (name : String)
  | repeatedAttribute (name : String)
  | notAString (name : String)
  | missingFile
  | unreadable (file : String) (reason : String)
  | badRange (name : String) (fault : RangeError)
  | notABoolean (name : String) (text : String)
  | unknownButton (text : String)
  | uncoveredHighlight (highlight : LineRange) (ranges : RangeList)
deriving DecidableEq, Inhabited

namespace DirectiveFault

def describeRanges (ranges : RangeList) : String :=
  if ranges.isEmpty then "the file" else "range " ++ ranges.displayString

def message : DirectiveFault -> String
  | unknownAttribute name => "unknown attribute `" ++ name ++ "`"
  | repeatedAttribute name => "attribute `" ++ name ++ "` given more than once"
  | notAString name => "attribute `" ++ name ++ "` must be a string literal"
  | missingFile => "missing required attribute `file`"
  | unreadable file reason => "unable to read \"" ++ file ++ "\": " ++ reason
  | badRange name fault => "invalid `" ++ name ++ "`: " ++ fault.message
  | notABoolean name text =>
      "attribute `" ++ name ++ "` must be true or false, got \"" ++ text ++ "\""
  | unknownButton text => Button.unknownMessage text
  | uncoveredHighlight highlight ranges =>
      "highlight " ++ highlight.displayString ++ " is not inside " ++ describeRanges ranges

def isFileAccess : DirectiveFault -> Bool
  | unreadable _ _ => true
  | _ => false

end DirectiveFault

structure Directive where
  file : String
  ranges : RangeList
  highlight : RangeList
  showLineNumbers : Bool
  allowCopy : Bool
  buttons : List Button
  source : SourceText
deriving DecidableEq, Inhabited

namespace Directive

def elementName : String :=
  "EmbeddedFile"

def knownAttributes : List String :=
  ["file", "range", "highlight", "showLineNumbers", "allowCopy", "buttons"]

def resolve (directory : FilePath) (file : String) : FilePath :=
  directory.join ⟨file⟩

/-!
# Reading attributes

Each reader gives a value to go on with and the faults of its attribute.
-/

def nameFaults (tag : Tag) : List DirectiveFault :=
  let unknown := tag.attributes.filter fun entry => !knownAttributes.contains entry.name
  let repeated := knownAttributes.filter fun name =>
    1 < tag.attributes.countP fun entry => entry.name == name
  unknown.map (fun entry => .unknownAttribute entry.name) ++ repeated.map .repeatedAttribute

def stringAttribute (tag : Tag) (name : String) : Except DirectiveFault (Option String) :=
  match tag.attribute? name with
  | none => .ok none
  | some (.string text) => .ok (some text)
  | some _ => .error (.notAString name)

def readFile (tag : Tag) : Except DirectiveFault String :=
  match stringAttribute tag "file" with
  | .error fault => .error fault
  | .ok none => .error .missingFile
  | .ok (some text) =>
      if Text.isBlankLine text.toList then .error .missingFile else .ok (Text.trimmed text)

def readSource (tag : Tag) (directory : FilePath) (sources : Sources) :
    Except DirectiveFault (String × SourceText) :=
  match readFile tag with
  | .error fault => .error fault
  | .ok file =>
      match sources.get (resolve directory file) with
      | .error reason => .error (.unreadable file reason)
      | .ok source => .ok (file, source)

def readRanges (tag : Tag) (name : String) : RangeList × List DirectiveFault :=
  match stringAttribute tag name with
  | .error fault => ([], [fault])
  | .ok none => ([], [])
  | .ok (some text) =>
      match RangeList.parse text with
      | .error faults => ([], faults.map (.badRange name))
      | .ok ranges => (ranges, [])

/-- A flag that is set unless it is said to be false. -/
def readFlag (tag : Tag) (name : String) : Bool × List DirectiveFault :=
  let decide (text : String) : Bool × List DirectiveFault :=
    let word := Text.trimmed text
    if word = "true" then (true, [])
    else if word = "false" then (false, [])
    else (true, [.notABoolean name word])
  match tag.attribute? name with
  | none => (true, [])
  | some .bare => (true, [])
  | some (.string text) => decide text
  | some (.expression text) => decide text

def readButtonItems : List Button -> List String -> List Button × List DirectiveFault
  | known, [] => (known, [])
  | known, item :: rest =>
      match Button.ofName? item with
      | some button =>
          readButtonItems (if known.contains button then known else known ++ [button]) rest
      | none =>
          let (buttons, faults) := readButtonItems known rest
          (buttons, .unknownButton item :: faults)

def readButtons (tag : Tag) : List Button × List DirectiveFault :=
  match stringAttribute tag "buttons" with
  | .error fault => ([], [fault])
  | .ok none => ([], [])
  | .ok (some text) =>
      readButtonItems []
        ((Text.splitAt ',' text.toList).map fun item => String.ofList (Text.trim item))

/-!
# Checking ranges against the file
-/

def coveringRanges (ranges : RangeList) (source : SourceText) : RangeList :=
  if ranges.isEmpty then RangeList.whole source.lineCount else ranges

def rangeFaults (ranges highlight : RangeList) (source : SourceText) : List DirectiveFault :=
  let covering := coveringRanges ranges source
  (RangeList.outOfBounds ranges source.lineCount).map (.badRange "range") ++
    (highlight.filter fun range => !RangeList.covers covering range).map
      fun range => .uncoveredHighlight range ranges

def ofTag (tag : Tag) (directory : FilePath) (sources : Sources) :
    Except (List DirectiveFault) Directive :=
  let names := nameFaults tag
  let source := readSource tag directory sources
  let (ranges, badRanges) := readRanges tag "range"
  let (highlight, badHighlight) := readRanges tag "highlight"
  let (showLineNumbers, badLineNumbers) := readFlag tag "showLineNumbers"
  let (allowCopy, badCopy) := readFlag tag "allowCopy"
  let (buttons, badButtons) := readButtons tag
  let values := badRanges ++ badHighlight ++ badLineNumbers ++ badCopy ++ badButtons
  match source with
  | .error fault => .error (names ++ fault :: values)
  | .ok (file, text) =>
      match names ++ values ++ rangeFaults ranges highlight text with
      | [] => .ok ⟨file, ranges, highlight, showLineNumbers, allowCopy, buttons, text⟩
      | faults => .error faults

/-!
# What a directive shows
-/

def path (directive : Directive) : FilePath :=
  directive.source.path

def effectiveRanges (directive : Directive) : RangeList :=
  coveringRanges directive.ranges directive.source

def highlightWithin (directive : Directive) (range : LineRange) : List LineRange :=
  directive.highlight.filter fun inner => range.contains inner

end Directive
end LessonPress

import LessonPress.Embed.Directive
import LessonPress.Embed.Drift
import LessonPress.Excerpt.Dedent
import LessonPress.Excerpt.Language

/-!
# Expanding directives

## Code blocks in the place of embed directives

A valid directive becomes one code block for each of its ranges, with a warning in
front when its content has drifted.  An invalid one becomes an error diagnostic.
The rest of the tree stays as it is.
-/

namespace LessonPress

structure InvalidEmbed where
  line : Nat
  file : Option String
  messages : List String
deriving DecidableEq, Inhabited

structure EmbeddedFiles where
  files : SortedMap (List String)
  invalid : List InvalidEmbed
deriving Inhabited

namespace EmbeddedFiles

def empty : EmbeddedFiles :=
  ⟨.empty, []⟩

def addRanges (embedded : EmbeddedFiles) (file : String) (ranges : List String) :
    EmbeddedFiles :=
  let earlier := (embedded.files.find? file).getD []
  { embedded with files := embedded.files.insert file (earlier ++ ranges) }

end EmbeddedFiles

structure Expansion where
  embedded : EmbeddedFiles
  errors : List String
  warnings : List String
  count : Nat
  ledger : DriftLedger
deriving Inhabited

namespace Expansion

def start (ledger : DriftLedger) : Expansion :=
  ⟨.empty, [], [], 0, ledger⟩

end Expansion

structure EmbedContext where
  directory : FilePath
  lines : List (List Char)
  sources : Sources

namespace Directive

/-!
# Valid directives
-/

def slice (source : SourceText) (range : LineRange) : List (List Char) :=
  (source.lines.take range.stop).drop (range.start - 1)

def slices (directive : Directive) : List (List Char) :=
  directive.effectiveRanges.map fun range => Text.joinLines (slice directive.source range)

def excerpt (directive : Directive) (range : LineRange) : ExcerptMeta :=
  { fileName := directive.file
    startLine := range.start
    highlight := directive.highlightWithin range
    showLineNumbers := directive.showLineNumbers
    allowCopy := directive.allowCopy
    buttons := directive.buttons }

def codeBlock (directive : Directive) (position : Position) (range : LineRange) : CodeBlock :=
  { lang := some (Excerpt.languageOf directive.path)
    info := some (directive.excerpt range).text
    value := String.ofList (Excerpt.dedent (slice directive.source range))
    position := some position
    excerpt := some (directive.excerpt range) }

def codeBlocks (directive : Directive) (position : Position) : List CodeBlock :=
  directive.effectiveRanges.map (directive.codeBlock position)

def identity (directive : Directive) : ContentHash :=
  EmbedIdentity.of directive.path directive.ranges

def driftMessage (directive : Directive) : String :=
  "Content of \"" ++ directive.file ++ "\" (" ++
    (if directive.ranges.isEmpty then "whole file"
      else "lines " ++ directive.ranges.displayString) ++
    ") changed since the last compile; check that `range` and `highlight` still point " ++
    "at the right lines"

end Directive

namespace Expansion

def onLine (line : Nat) (message : String) : String :=
  "line " ++ toString line ++ ": " ++ message

def driftDiagnostic (message : String) : Node :=
  .diagnostic ⟨.warning, "Embedded file changed", [message], none⟩

def expandValid (directive : Directive) (position : Position) (expansion : Expansion) :
    List Node × Expansion :=
  let blocks := (directive.codeBlocks position).map Node.code
  let (status, ledger) :=
    expansion.ledger.observe directive.identity (EmbedIdentity.ofSlices directive.slices)
  let message := directive.driftMessage
  let drifted := status = .drifted
  let expansion :=
    { expansion with
      embedded := expansion.embedded.addRanges directive.file
        (directive.effectiveRanges.map LineRange.displayString)
      warnings :=
        if drifted then expansion.warnings ++ [onLine position.startLine message]
        else expansion.warnings
      count := expansion.count + 1
      ledger := ledger }
  (if drifted then driftDiagnostic message :: blocks else blocks, expansion)

/-!
# Invalid directives
-/

/-- The lines of the document that are shown before and after a directive. -/
def contextLines : Nat := 2

def sourceExcerpt (lines : List (List Char)) (position : Position) : SourceExcerpt :=
  let first := max (position.startLine - contextLines) 1
  let last := min (position.endLine + contextLines) lines.length
  let shown := if first ≤ last then (lines.take last).drop (first - 1) else []
  ⟨first, String.ofList (Text.joinLines shown)⟩

def fileAttribute (tag : Tag) : Option String :=
  match tag.attribute? "file" with
  | some (.string file) => some file
  | _ => none

def expandInvalid (context : EmbedContext) (tag : Tag) (position : Position)
    (faults : List DirectiveFault) (expansion : Expansion) : List Node × Expansion :=
  let line := position.startLine
  let messages := faults.map DirectiveFault.message
  let marker : InvalidEmbed := ⟨line, fileAttribute tag, messages⟩
  let content : Diagnostic :=
    { severity := .error
      title := "Invalid <" ++ Directive.elementName ++ ">"
      messages := messages
      excerpt := some (sourceExcerpt context.lines position) }
  let embedded :=
    { expansion.embedded with invalid := expansion.embedded.invalid ++ [marker] }
  ([.diagnostic content],
    { expansion with
      embedded := embedded
      errors := expansion.errors ++ messages.map (onLine line) })

def expandDirective (context : EmbedContext) (tag : Tag) (position : Position)
    (expansion : Expansion) : List Node × Expansion :=
  match Directive.ofTag tag context.directory context.sources with
  | .ok directive => expandValid directive position expansion
  | .error faults => expandInvalid context tag position faults expansion

/-!
# The tree
-/

mutual

/-- Expands the directives in a node.  What is inside a directive goes with it. -/
def expandNode (context : EmbedContext) : Node -> Expansion -> List Node × Expansion
  | .element tag children position, expansion =>
      if tag.name = Directive.elementName then
        expandDirective context tag position expansion
      else
        let (children, expansion) := expandNodes context children expansion
        ([.element tag children position], expansion)
  | node, expansion => ([node], expansion)

def expandNodes (context : EmbedContext) : List Node -> Expansion -> List Node × Expansion
  | [], expansion => ([], expansion)
  | node :: rest, expansion =>
      let (first, expansion) := expandNode context node expansion
      let (others, expansion) := expandNodes context rest expansion
      (first ++ others, expansion)

end

end Expansion

/-!
# Referenced files
-/

namespace Directive

def requestedPath (directory : FilePath) : Node -> Option FilePath
  | .element tag _ _ =>
      if tag.name = elementName then
        match readFile tag with
        | .ok file => some (resolve directory file)
        | .error _ => none
      else
        none
  | _ => none

/-- The paths without those that an earlier one spells differently. -/
def dropRepeated : List FilePath -> List FilePath -> List FilePath
  | known, [] => known
  | known, path :: rest =>
      if known.any fun other => other.same path then dropRepeated known rest
      else dropRepeated (known ++ [path]) rest

def requestedPaths (document : Document) (directory : FilePath) : List FilePath :=
  dropRepeated [] ((Node.walkAll document.children).filterMap (requestedPath directory))

end Directive
end LessonPress

import LessonPress.Cache.Call
import LessonPress.Document.Encoding
import LessonPress.Document.Parser
import LessonPress.Embed.Expansion
import LessonPress.Json.Printer

/-!
# Compiling a document

## From the bytes of a document to its serialized tree

Only a document that cannot be read or parsed fails to compile.  Invalid directives
are reported inside the result.
-/

namespace LessonPress

structure CompiledDocument where
  code : String
  title : Option String
  videoUrls : List String
  errors : List String
  warnings : List String
  frontmatter : SortedMap String
  embedded : EmbeddedFiles
deriving Inhabited

namespace Compile

def notUtf8 (path : FilePath) : Error :=
  .parse path "document is not valid UTF-8"

def directoryOf (path : FilePath) : FilePath :=
  path.parent.getD ⟨"."⟩

def readDocument (fs : FileSystem) (path : FilePath) : Except Error (String × Document) :=
  match fs.read path with
  | .error cause => .error (.read path cause.message)
  | .ok bytes =>
      match String.fromUTF8? bytes with
      | none => .error (notUtf8 path)
      | some source =>
          match Document.parse source with
          | .error cause => .error (.parse path cause.message)
          | .ok document => .ok (source, document)

def assemble (document : Document) (expansion : Expansion) : CompiledDocument :=
  { code := document.toJson.toText
    title := document.title <|> document.frontmatter.find? "title"
    videoUrls := document.videoUrls
    errors := expansion.errors
    warnings := expansion.warnings
    frontmatter := document.frontmatter
    embedded := expansion.embedded }

def expand (fs : FileSystem) (ledger : DriftLedger) (directory : FilePath) (source : String)
    (document : Document) : Computed CompiledDocument × DriftLedger :=
  let sources := Sources.preload fs (Directive.requestedPaths document directory)
  let context : EmbedContext := ⟨directory, Text.linesOf source, sources⟩
  let (children, expansion) :=
    Expansion.expandNodes context document.children (.start ledger)
  (⟨assemble { document with children := children } expansion, sources.tracked⟩,
    expansion.ledger)

def compileDocument (fs : FileSystem) (ledger : DriftLedger) (path : FilePath) :
    Except Error (Computed CompiledDocument) × DriftLedger :=
  match readDocument fs path with
  | .error cause => (.error cause, ledger)
  | .ok (source, document) =>
      let (computed, ledger) := expand fs ledger (directoryOf path) source document
      (.ok computed, ledger)

end Compile
end LessonPress

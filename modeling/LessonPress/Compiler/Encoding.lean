import LessonPress.Cache.JsonStore
import LessonPress.Compiler.Compile

/-!
# Compiled documents as JSON

## The form in which results are stored
-/

namespace LessonPress

open Json (FieldRule record required nullable asString asWord)

namespace InvalidEmbed

def toJson (marker : InvalidEmbed) : Json :=
  .object
    [("line", .nat marker.line), ("file", Json.optional .string marker.file),
      ("messages", Json.strings marker.messages)]

def ofJson? (value : Json) : Option InvalidEmbed :=
  match record [{ name := "line" }, { name := "file" }, { name := "messages" }] value with
  | some [line, file, messages] => do
      let line ← required asWord line
      let file ← nullable asString file
      let messages ← required (Json.asList asString) messages
      some ⟨line, file, messages⟩
  | _ => none

end InvalidEmbed

namespace EmbeddedFiles

def filesJson (files : SortedMap (List String)) : Json :=
  .object (files.entries.map fun entry => (entry.1, Json.strings entry.2))

def readFiles : Json -> Option (SortedMap (List String))
  | .object fields =>
      (Json.allSome (fields.map fun entry =>
        (Json.asList asString entry.2).map (entry.1, ·))).map SortedMap.ofList
  | _ => none

def toJson (embedded : EmbeddedFiles) : Json :=
  .object
    [("files", filesJson embedded.files),
      ("invalid", Json.list InvalidEmbed.toJson embedded.invalid)]

def ofJson? (value : Json) : Option EmbeddedFiles :=
  match record [{ name := "files" }, { name := "invalid" }] value with
  | some [files, invalid] => do
      let files ← required readFiles files
      let invalid ← required (Json.asList InvalidEmbed.ofJson?) invalid
      some ⟨files, invalid⟩
  | _ => none

end EmbeddedFiles

namespace CompiledDocument

def toJson (compiled : CompiledDocument) : Json :=
  .object
    [("code", .string compiled.code),
      ("title", Json.optional .string compiled.title),
      ("videoEmbedUrls", Json.strings compiled.videoUrls),
      ("errors", Json.strings compiled.errors),
      ("warnings", Json.strings compiled.warnings),
      ("frontmatter", Document.frontmatterJson compiled.frontmatter),
      ("embeddedFiles", compiled.embedded.toJson)]

def fieldRules : List FieldRule :=
  [{ name := "code" }, { name := "title" }, { name := "videoEmbedUrls" }, { name := "errors" },
    { name := "warnings" }, { name := "frontmatter" }, { name := "embeddedFiles" }]

def ofJson? (value : Json) : Option CompiledDocument :=
  match record fieldRules value with
  | some [code, title, videoUrls, errors, warnings, frontmatter, embedded] => do
      let code ← required asString code
      let title ← nullable asString title
      let videoUrls ← required (Json.asList asString) videoUrls
      let errors ← required (Json.asList asString) errors
      let warnings ← required (Json.asList asString) warnings
      let frontmatter ← required Document.readFrontmatter frontmatter
      let embedded ← required EmbeddedFiles.ofJson? embedded
      some ⟨code, title, videoUrls, errors, warnings, frontmatter, embedded⟩
  | _ => none

def codec : Codec CompiledDocument :=
  ⟨toJson, ofJson?⟩

end CompiledDocument
end LessonPress

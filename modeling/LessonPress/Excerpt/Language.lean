import LessonPress.Path.Basic
import LessonPress.Text.Case

/-!
# Languages of source files

## The language tag that belongs to a file extension
-/

namespace LessonPress
namespace Excerpt

def languageOfExtension (extension : String) : String :=
  match extension with
  | "ts" | "mts" | "cts" => "ts"
  | "js" | "mjs" | "cjs" => "js"
  | "rs" => "rust"
  | "py" => "python"
  | "rb" => "ruby"
  | "sh" | "bash" | "zsh" => "sh"
  | "yml" | "yaml" => "yaml"
  | "htm" | "html" => "html"
  | "json" | "jsonc" => "json"
  | "txt" => "text"
  | other => other

def languageOf (path : FilePath) : String :=
  match path.extension with
  | none => "text"
  | some extension => languageOfExtension (String.ofList (extension.toList.map Text.asciiLower))

end Excerpt
end LessonPress

import LessonPress.Cache.Run
import LessonPress.Compiler.Config
import LessonPress.Compiler.Encoding

/-!
# The document compiler

## Compiling through a cache

Results are kept under the absolute path of the document, and a result is served
again as long as the document and every file that it shows stay the same.
-/

namespace LessonPress

structure Workspace where
  files : FileSystem
  ledger : DriftLedger
deriving Inhabited

instance : Disk Workspace where
  files workspace := workspace.files
  withFiles workspace files := { workspace with files := files }

namespace DocumentCompiler

def setup (config : CompilerConfig) : CacheSetup Workspace CompiledDocument where
  trust := config.trust
  store :=
    config.cacheDirectory.map fun directory =>
      (JsonStore.mk directory CompiledDocument.codec).toStore

def callOptions (config : CompilerConfig) (forceFresh : Bool) : CallOptions :=
  ⟨config.ttl, config.grace, forceFresh⟩

/-- The key of a document: its path without dots and, for strict keys, its content. -/
def keyOf (config : CompilerConfig) (fs : FileSystem) (path : FilePath) :
    Except Error CacheKey :=
  match fs.canonical path with
  | .error cause => .error (.read path cause.message)
  | .ok absolute =>
      if config.strict then CacheKey.strict fs absolute else .ok (CacheKey.file absolute)

def computeKey (key : CacheKey) (workspace : Workspace) :
    Except Error (Computed CompiledDocument) × Workspace :=
  let (outcome, ledger) := Compile.compileDocument workspace.files workspace.ledger key.path
  (outcome, { workspace with ledger := ledger })

def compile (config : CompilerConfig) (now : UInt64) (path : FilePath) (forceFresh : Bool)
    (scene : Scene Workspace CompiledDocument) :
    Except Error CompiledDocument × Scene Workspace CompiledDocument :=
  match keyOf config scene.disk.files path with
  | .error cause => (.error cause, scene)
  | .ok key =>
      scene.getOrCompute (setup config) now key (callOptions config forceFresh) (computeKey key)

end DocumentCompiler
end LessonPress

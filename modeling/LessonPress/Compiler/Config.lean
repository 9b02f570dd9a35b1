import LessonPress.Cache.Entry
import LessonPress.Text.Blank
import LessonPress.Text.Case
import LessonPress.Text.Digits

/-!
# Compiler configuration

## Presets and overrides from environment variables
-/

namespace LessonPress

structure CompilerConfig where
  cacheDirectory : Option FilePath
  trust : Bool
  ttl : Option Duration
  grace : Duration
  strict : Bool
deriving DecidableEq, Inhabited

namespace CompilerConfig

def development : CompilerConfig :=
  ⟨none, false, none, .zero, false⟩

def production : CompilerConfig :=
  { development with cacheDirectory := some ⟨".lectern/cache"⟩, trust := true }

def same (a b : CompilerConfig) : Bool :=
  let directories :=
    match a.cacheDirectory, b.cacheDirectory with
    | none, none => true
    | some left, some right => left.same right
    | _, _ => false
  directories && a.trust == b.trust && decide (a.ttl = b.ttl) && decide (a.grace = b.grace) &&
    a.strict == b.strict

/-!
# Environment variables
-/

def readSwitch (value : String) : Option Bool :=
  let word := String.ofList ((Text.trim value.toList).map Text.asciiLower)
  if word = "1" ∨ word = "true" ∨ word = "yes" then some true
  else if word = "0" ∨ word = "false" ∨ word = "no" then some false
  else none

/-- A whole number of 64 bits, which a plus sign may stand in front of. -/
def readSeconds (value : String) : Option UInt64 :=
  let text := Text.trim value.toList
  let digits :=
    match text with
    | '+' :: rest => rest
    | _ => text
  if digits.isEmpty || !digits.all Text.isDigit then
    none
  else if Text.decimalValue digits < UInt64.size then
    some (UInt64.ofNat (Text.decimalValue digits))
  else
    none

/-- The lifetime that a number of seconds asks for; zero asks for none. -/
def lifetimeOf (seconds : UInt64) : Option Duration :=
  if seconds = 0 then none else some (.ofSeconds seconds)

def directoryOf (value : String) : Option FilePath :=
  if Text.isBlankLine value.toList then none else some ⟨value⟩

/-- The configuration that variables describe.  A value without a meaning changes
nothing. -/
def ofEnvironment (lookUp : String -> Option String) : CompilerConfig :=
  let preset := if lookUp "LECTERN_ENV" = some "production" then production else development
  { preset with
    trust := ((lookUp "LECTERN_TRUST_CACHE").bind readSwitch).getD preset.trust
    cacheDirectory :=
      match lookUp "LECTERN_CACHE_DIR" with
      | none => preset.cacheDirectory
      | some value => directoryOf value
    ttl :=
      match (lookUp "LECTERN_CACHE_TTL_SECS").bind readSeconds with
      | none => preset.ttl
      | some seconds => lifetimeOf seconds }

end CompilerConfig
end LessonPress

import LessonPress.Hash.ContentHash
import LessonPress.Map.Table
import LessonPress.Path.Basic
import LessonPress.Range.RangeList

/-!
# Drift of embedded content

## Warning once when an excerpt changes

The ledger keeps the last content of every embed.  A change is reported as drift,
and the content from before it is kept as a baseline for as long as the warning is
outstanding.  Going back to the baseline resolves the warning.
-/

namespace LessonPress

structure DriftRecord where
  last : ContentHash
  baseline : Option ContentHash
deriving DecidableEq, Inhabited

inductive DriftStatus where
  | fresh
  | unchanged
  | drifted
  | resolved
deriving DecidableEq, Inhabited

abbrev DriftLedger := Table ContentHash DriftRecord

namespace DriftLedger

def judge (record : Option DriftRecord) (current : ContentHash) : DriftStatus × DriftRecord :=
  match record with
  | none => (.fresh, ⟨current, none⟩)
  | some known =>
      if known.baseline = some current then (.resolved, ⟨current, none⟩)
      else if known.last ≠ current then (.drifted, ⟨current, some known.last⟩)
      else (.unchanged, ⟨current, known.baseline⟩)

def observe (ledger : DriftLedger) (identity current : ContentHash) :
    DriftStatus × DriftLedger :=
  let (status, record) := judge (ledger.find? identity) current
  (status, ledger.insert identity record)

end DriftLedger

/-!
# Hashed streams
-/

namespace EmbedIdentity

/-- What stands for an embed: its path as it is spelled, and its declared ranges on
a line of their own. -/
def stream (path : FilePath) (ranges : RangeList) : List Char :=
  path.chars ++ '\n' :: ranges.display

def of (path : FilePath) (ranges : RangeList) : ContentHash :=
  .ofString (String.ofList (stream path ranges))

/-- What stands for the content of an embed: its slices, each with a line feed at
its end. -/
def contentStream (slices : List (List Char)) : List Char :=
  slices.flatMap fun slice => slice ++ ['\n']

def ofSlices (slices : List (List Char)) : ContentHash :=
  .ofString (String.ofList (contentStream slices))

end EmbedIdentity
end LessonPress

import LessonPress.Diff.Basic
import LessonPress.Diff.Spans

/-!
# Inline highlighting

## Marking what changed between paired lines

A run of removed lines right before a run of added lines is a replacement, and
the lines of the two runs are paired by position.  The changed spans of a pair are
put under marks; lines without a partner and pairs that carry marks already stay
as they are.
-/

namespace LessonPress

structure HighlightStats where
  blocks : Nat
  pairs : Nat
  highlighted : Nat
  suppressed : Nat
  skipped : Nat
deriving DecidableEq, Inhabited

namespace HighlightStats

def zero : HighlightStats :=
  ⟨0, 0, 0, 0, 0⟩

def add (a b : HighlightStats) : HighlightStats :=
  ⟨a.blocks + b.blocks, a.pairs + b.pairs, a.highlighted + b.highlighted,
    a.suppressed + b.suppressed, a.skipped + b.skipped⟩

def ofBlock : HighlightStats := { zero with blocks := 1 }

def ofHighlighted : HighlightStats := { zero with pairs := 1, highlighted := 1 }

def ofSuppressed : HighlightStats := { zero with pairs := 1, suppressed := 1 }

def ofSkipped : HighlightStats := { zero with pairs := 1, skipped := 1 }

end HighlightStats

/-!
# Putting a mark on a line
-/

structure Cut where
  before : List StyledText
  inside : List StyledText
  after : List StyledText

namespace Cut

def part (piece : StyledText) (text : List Char) : List StyledText :=
  if text.isEmpty then [] else [piece.withText text]

def ofPiece (span : Span) (offset : Nat) (piece : StyledText) : Cut :=
  let stop := offset + piece.length
  if stop ≤ span.start then ⟨[piece], [], []⟩
  else if span.stop ≤ offset then ⟨[], [], [piece]⟩
  else
    let text := piece.text.toList
    let first := max span.start offset - offset
    let last := min span.stop stop - offset
    ⟨part piece (text.take first),
      [piece.withText ((text.take last).drop first)],
      part piece (text.drop last)⟩

def ofPieces (span : Span) : Nat -> List StyledText -> Cut
  | _, [] => ⟨[], [], []⟩
  | offset, piece :: rest =>
      let first := ofPiece span offset piece
      let others := ofPieces span (offset + piece.length) rest
      ⟨first.before ++ others.before, first.inside ++ others.inside,
        first.after ++ others.after⟩

def marked (cut : Cut) (mark : InlineMark) : List Fragment :=
  cut.before.map .text ++
    (if cut.inside.isEmpty then [] else [.mark mark cut.inside]) ++
    cut.after.map .text

end Cut

namespace DiffLine

def wrap (line : DiffLine) (span : Span) (mark : InlineMark) : DiffLine :=
  if span.isEmpty then line
  else { line with fragments := (Cut.ofPieces span 0 line.pieces).marked mark }

end DiffLine

/-!
# Pairs and runs
-/

namespace Highlight

def pair (limits : InlineLimits) (removed added : DiffLine) :
    (DiffLine × DiffLine) × HighlightStats :=
  if removed.hasMarks || added.hasMarks then
    ((removed, added), .ofSkipped)
  else
    match ChangedSpans.compare removed.characters added.characters limits with
    | .ok spans =>
        ((removed.wrap spans.removed .removed, added.wrap spans.added .added), .ofHighlighted)
    | .error .identical => ((removed, added), .ofSkipped)
    | .error _ => ((removed, added), .ofSuppressed)

def runs (limits : InlineLimits) : List DiffLine -> List DiffLine ->
    (List DiffLine × List DiffLine) × HighlightStats
  | removed :: olds, added :: news =>
      let ((removed, added), first) := pair limits removed added
      let ((olds, news), others) := runs limits olds news
      ((removed :: olds, added :: news), first.add others)
  | olds, news => ((olds, news), .zero)

def isRemoved (line : DiffLine) : Bool :=
  line.kind = .remove

def isAdded (line : DiffLine) : Bool :=
  line.kind = .add

def lines (limits : InlineLimits) : List DiffLine -> List DiffLine × HighlightStats
  | [] => ([], .zero)
  | line :: rest =>
      if isRemoved line then
        let olds := line :: rest.takeWhile isRemoved
        let following := rest.dropWhile isRemoved
        let news := following.takeWhile isAdded
        let ((olds, news), first) := runs limits olds news
        let (others, stats) := lines limits (following.dropWhile isAdded)
        (olds ++ news ++ others, first.add stats)
      else
        let (others, stats) := lines limits rest
        (line :: others, stats)
termination_by block => block.length
decreasing_by
  · have hremoved := (List.dropWhile_sublist isRemoved (l := rest)).length_le
    have hadded := (List.dropWhile_sublist isAdded (l := rest.dropWhile isRemoved)).length_le
    simp only [List.length_cons]
    omega
  · exact Nat.lt_succ_self _

def block (limits : InlineLimits) (block : DiffBlock) : DiffBlock × HighlightStats :=
  if block.isMixed then
    let (changed, stats) := lines limits block.lines
    ({ block with lines := changed }, HighlightStats.ofBlock.add stats)
  else
    (block, .zero)

def blocks (limits : InlineLimits) : List DiffBlock -> List DiffBlock × HighlightStats
  | [] => ([], .zero)
  | first :: rest =>
      let (first, own) := block limits first
      let (rest, others) := blocks limits rest
      (first :: rest, own.add others)

end Highlight
end LessonPress

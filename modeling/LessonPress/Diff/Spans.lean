import LessonPress.Binary64.Decimal

/-!
# Changed spans

## What differs between two lines

The changed span of a line is what lies between the longest common prefix and the
longest common suffix of the two lines; the suffix does not reach into the prefix.
A change that is too long, or too large a part of the longer line, is not worth
marking.
-/

namespace LessonPress

/-- Character offsets, the second one exclusive. -/
structure Span where
  start : Nat
  stop : Nat
deriving DecidableEq, Inhabited

namespace Span

def length (span : Span) : Nat :=
  span.stop - span.start

def isEmpty (span : Span) : Bool :=
  span.stop ≤ span.start

def cover (span : Span) (text : List Char) : List Char :=
  (text.drop span.start).take span.length

def cutOut (span : Span) (text : List Char) : List Char :=
  text.take span.start ++ text.drop span.stop

end Span

structure ChangedSpans where
  removed : Span
  added : Span
deriving DecidableEq, Inhabited

/-- How large a change may be: in characters, and as a part of the longer line.  A ratio that is
plus infinity or no number at all bounds nothing, and a number larger than every change stands for
it.  One that is minus infinity rejects every change, as negative numbers do. -/
structure InlineLimits where
  characters : Nat
  ratio : Binary64
deriving DecidableEq, Inhabited

namespace InlineLimits

def standard : InlineLimits :=
  ⟨120, (Binary64.ofNat 6).div (.ofNat 10)⟩

end InlineLimits

inductive Verdict where
  | identical
  | nothingInCommon
  | tooLong
  | tooMuchOfLine
deriving DecidableEq, Inhabited

namespace ChangedSpans

def commonPrefixLength : List Char -> List Char -> Nat
  | a :: old, b :: new => if a = b then commonPrefixLength old new + 1 else 0
  | _, _ => 0

def commonSuffixLength (limit : Nat) (old new : List Char) : Nat :=
  min limit (commonPrefixLength old.reverse new.reverse)

def compare (old new : List Char) (limits : InlineLimits) : Except Verdict ChangedSpans :=
  let front := commonPrefixLength old new
  let back := commonSuffixLength (min old.length new.length - front) old new
  let spans : ChangedSpans := ⟨⟨front, old.length - back⟩, ⟨front, new.length - back⟩⟩
  let changed := max spans.removed.length spans.added.length
  let longer := max old.length new.length
  if old = new then .error .identical
  else if front = 0 ∧ back = 0 then .error .nothingInCommon
  else if limits.characters < changed then .error .tooLong
  else if (limits.ratio.mul (.ofNat longer)).lt (.ofNat changed) then .error .tooMuchOfLine
  else .ok spans

/-- The changed spans of a removed and an added line, unless the lines are the same
or the change is not worth marking. -/
def find? (removed added : String) (limits : InlineLimits) : Option ChangedSpans :=
  (compare removed.toList added.toList limits).toOption

end ChangedSpans
end LessonPress

import LessonPress.Embed.Directive
import LessonPress.Embed.Expansion
import LessonPress.Proofs.Text.Decimal

/-!
# Messages

## How the messages about directives end

A file that a directive asks for and that was not loaded would be the fault of the program.
That reason would stand at the end of a message, and messages do not end like it.
-/

namespace LessonPress

/-- The last character of a text is not that of the reason for a file that was not loaded. -/
def EndsApart (text : String) : Prop :=
  exists c, text.toList.getLast? = some c ∧ c ≠ 'd'

namespace EndsApart

variable {text : String}

theorem append (h : EndsApart text) (front : String) : EndsApart (front ++ text) := by
  obtain ⟨c, hlast, hc⟩ := h
  refine ⟨c, ?_, hc⟩
  rw [String.toList_append, List.getLast?_append, hlast]
  rfl

theorem not_suffix (h : EndsApart text) : ¬ "file was not loaded".toList <:+ text.toList := by
  rintro ⟨front, hfront⟩
  obtain ⟨c, hlast, hc⟩ := h
  have hreason : "file was not loaded".toList.getLast? = some 'd' := by
    rfl
  rw [← hfront, List.getLast?_append, hreason] at hlast
  exact hc (Option.some.inj hlast).symm

theorem of_digits {digits : List Char} (front : List Char) (hdigits : digits ≠ [])
    (hall : forall c, c ∈ digits -> Text.isDigit c = true) :
    EndsApart (String.ofList (front ++ digits)) := by
  refine ⟨digits.getLast hdigits, ?_, ?_⟩
  · rw [String.toList_ofList, List.getLast?_append, List.getLast?_eq_some_getLast hdigits]
    rfl
  · intro hlast
    have hdigit := hall _ (List.getLast_mem hdigits)
    rw [hlast] at hdigit
    cases hdigit

end EndsApart

theorem IoError.endsApart_message (cause : IoError) : EndsApart cause.message := by
  cases cause with
  | notFound => exact ⟨')', rfl, by decide⟩
  | notADirectory => exact ⟨')', rfl, by decide⟩
  | isADirectory => exact ⟨')', rfl, by decide⟩
  | alreadyExists => exact ⟨')', rfl, by decide⟩
  | nameTooLong => exact ⟨')', rfl, by decide⟩
  | nulByte => exact ⟨'e', rfl, by decide⟩

theorem LineRange.exists_display (range : LineRange) :
    exists front, range.display = front ++ Text.decimal range.stop := by
  unfold display
  by_cases hsingle : range.start = range.stop
  · rw [if_pos hsingle, hsingle]
    exact ⟨[], rfl⟩
  · rw [if_neg hsingle]
    exact ⟨Text.decimal range.start ++ ['-'], by simp⟩

theorem LineRange.endsApart_displayString (range : LineRange) :
    EndsApart range.displayString := by
  obtain ⟨front, hdisplay⟩ := range.exists_display
  unfold displayString
  rw [hdisplay]
  exact .of_digits front (Text.decimal_ne_nil _) fun c hc => Text.isDigit_of_mem_decimal hc

theorem Text.exists_joinWith {separator : List Char} {pieces : List (List Char)}
    (h : pieces ≠ []) :
    exists front piece, piece ∈ pieces ∧ joinWith separator pieces = front ++ piece := by
  induction pieces with
  | nil => exact absurd rfl h
  | cons piece following ih =>
      cases following with
      | nil => exact ⟨[], piece, List.mem_cons_self, rfl⟩
      | cons next more =>
          obtain ⟨front, last, hmem, hlast⟩ := ih (List.cons_ne_nil next more)
          refine ⟨piece ++ separator ++ front, last, List.mem_cons_of_mem _ hmem, ?_⟩
          rw [joinWith_cons_cons, hlast, List.append_assoc (piece ++ separator)]

theorem RangeList.endsApart_displayString {ranges : RangeList} (h : ranges ≠ []) :
    EndsApart ranges.displayString := by
  have hnonempty : ranges.map LineRange.display ≠ [] := by
    simpa using h
  obtain ⟨front, last, hmem, hlast⟩ := Text.exists_joinWith hnonempty
  obtain ⟨range, _, rfl⟩ := List.mem_map.mp hmem
  obtain ⟨more, hrange⟩ := range.exists_display
  unfold displayString display
  rw [hlast, hrange, ← List.append_assoc]
  exact .of_digits _ (Text.decimal_ne_nil _) fun c hc => Text.isDigit_of_mem_decimal hc

theorem RangeError.endsApart_message (fault : RangeError) : EndsApart fault.message := by
  cases fault with
  | malformed item =>
      exact .append ⟨')', rfl, by decide⟩ ("\"" ++ item)
  | zero range => exact .append range.endsApart_displayString "line numbers start at 1, got "
  | descending range =>
      exact .append ⟨'s', rfl, by decide⟩ ("range " ++ range.displayString)
  | overlap previous next =>
      exact .append previous.endsApart_displayString
        ("range " ++ next.displayString ++ " overlaps ")
  | outOfOrder previous next =>
      exact .append ⟨'r', rfl, by decide⟩
        ("range " ++ next.displayString ++ " comes after " ++ previous.displayString)
  | outOfBounds range lineCount =>
      exact .append ⟨')', rfl, by decide⟩
        ("range " ++ range.displayString ++ " is outside the file (" ++ toString lineCount)

namespace DirectiveFault

theorem endsApart_describeRanges (ranges : RangeList) : EndsApart (describeRanges ranges) := by
  unfold describeRanges
  cases ranges with
  | nil => exact ⟨'e', rfl, by decide⟩
  | cons range rest =>
      exact .append (RangeList.endsApart_displayString (List.cons_ne_nil range rest)) "range "

/-- Of all faults, only a missing text brings a reason from outside into its message. -/
theorem endsApart_message {fault : DirectiveFault} (h : fault.isFileAccess = false) :
    EndsApart fault.message := by
  cases fault with
  | unreadable file reason => cases h
  | unknownAttribute name =>
      exact .append ⟨'`', rfl, by decide⟩ ("unknown attribute `" ++ name)
  | repeatedAttribute name =>
      exact .append ⟨'e', rfl, by decide⟩ ("attribute `" ++ name)
  | notAString name =>
      exact .append ⟨'l', rfl, by decide⟩ ("attribute `" ++ name)
  | missingFile => exact ⟨'`', rfl, by decide⟩
  | badRange name fault => exact .append fault.endsApart_message ("invalid `" ++ name ++ "`: ")
  | notABoolean name text =>
      exact .append ⟨'"', rfl, by decide⟩
        ("attribute `" ++ name ++ "` must be true or false, got \"" ++ text)
  | unknownButton text =>
      exact .append ⟨')', rfl, by decide⟩ ("unknown button \"" ++ text)
  | uncoveredHighlight highlight ranges =>
      exact .append (endsApart_describeRanges ranges)
        ("highlight " ++ highlight.displayString ++ " is not inside ")

end DirectiveFault

theorem Directive.endsApart_driftMessage (directive : Directive) :
    EndsApart directive.driftMessage := by
  exact .append ⟨'s', rfl, by decide⟩ _

end LessonPress

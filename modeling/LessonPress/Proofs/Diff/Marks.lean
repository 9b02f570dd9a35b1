import LessonPress.Diff.Highlight

/-!
# Marks on a line

## Cutting a line at the ends of a span loses nothing

The parts of a cut show what stands before a span, in it and behind it, each character in its
style, however the line is cut into pieces.  So a mark that is put on a span covers the
characters of the span and no others, and the line reads as before.
-/

namespace LessonPress

namespace StyledText

theorem length_view (piece : StyledText) : piece.view.length = piece.length := by
  unfold view length
  rw [List.length_map]

theorem view_withText (piece : StyledText) (text : List Char) :
    (piece.withText text).view = text.map fun c => (c, piece.style) := by
  unfold view withText
  rw [String.toList_ofList]

end StyledText

theorem Fragment.pieces_texts (pieces : List StyledText) :
    (pieces.map Fragment.text).flatMap Fragment.pieces = pieces := by
  induction pieces with
  | nil => rfl
  | cons piece rest ih =>
      rw [List.map_cons, List.flatMap_cons, ih]
      rfl

/-!
# Cuts
-/

namespace Cut

variable {span : Span}

theorem view_part (piece : StyledText) (text : List Char) :
    (part piece text).flatMap StyledText.view = text.map fun c => (c, piece.style) := by
  unfold part
  cases text with
  | nil => rfl
  | cons c rest =>
      rw [List.isEmpty_cons, if_neg Bool.false_ne_true, List.flatMap_singleton,
        StyledText.view_withText]

structure Shows (span : Span) (offset : Nat) (cut : Cut) (shown : List (Char × Option String)) :
    Prop where
  before : cut.before.flatMap StyledText.view = shown.take (span.start - offset)
  inside : cut.inside.flatMap StyledText.view =
    (shown.take (span.stop - offset)).drop (span.start - offset)
  after : cut.after.flatMap StyledText.view = shown.drop (span.stop - offset)

theorem shows_ofPiece (h : span.start ≤ span.stop) (offset : Nat) (piece : StyledText) :
    Shows span offset (ofPiece span offset piece) piece.view := by
  have hlength := piece.length_view
  unfold ofPiece
  dsimp only
  split
  · have htake : piece.view.take (span.start - offset) = piece.view :=
      List.take_of_length_le (by omega)
    have htaken : piece.view.take (span.stop - offset) = piece.view :=
      List.take_of_length_le (by omega)
    have hdrop : piece.view.drop (span.start - offset) = [] :=
      List.drop_eq_nil_of_le (by omega)
    have hdropped : piece.view.drop (span.stop - offset) = [] :=
      List.drop_eq_nil_of_le (by omega)
    constructor
    · rw [htake, List.flatMap_singleton]
    · rw [htaken, hdrop]
      rfl
    · rw [hdropped]
      rfl
  · split
    · have hstart : span.start - offset = 0 := by omega
      have hstop : span.stop - offset = 0 := by omega
      constructor
      · rw [hstart]
        rfl
      · rw [hstop, List.take_zero, List.drop_nil]
        rfl
      · rw [hstop, List.drop_zero, List.flatMap_singleton]
    · have hfirst : max span.start offset - offset = span.start - offset := by omega
      have hlast : min span.stop (offset + piece.length) - offset =
          min (span.stop - offset) piece.text.toList.length := by
        have hsize : piece.length = piece.text.toList.length := rfl
        omega
      have hview : piece.view = piece.text.toList.map fun c => (c, piece.style) := rfl
      rw [hfirst, hlast]
      constructor
      · rw [view_part, hview, List.map_take]
      · rw [List.flatMap_singleton, StyledText.view_withText, hview, List.map_drop,
          ← List.take_eq_take_min, List.map_take]
      · rw [view_part, hview, ← List.drop_eq_drop_min, List.map_drop]

theorem drop_take_append {alpha : Type} (front back : List alpha) (first last : Nat) :
    ((front ++ back).take last).drop first =
      (front.take last).drop first ++
        (back.take (last - front.length)).drop (first - front.length) := by
  rw [List.take_append, List.drop_append, List.length_take]
  by_cases hwhole : front.length ≤ last
  · rw [Nat.min_eq_right hwhole]
  · have hnone : last - front.length = 0 := by omega
    rw [hnone, List.take_zero, List.drop_nil, List.drop_nil]

theorem shows_ofPieces (h : span.start ≤ span.stop) (offset : Nat) (pieces : List StyledText) :
    Shows span offset (ofPieces span offset pieces) (pieces.flatMap StyledText.view) := by
  induction pieces generalizing offset with
  | nil => exact ⟨by simp [ofPieces], by simp [ofPieces], by simp [ofPieces]⟩
  | cons piece rest ih =>
      have hfirst := shows_ofPiece h offset piece
      have hrest := ih (offset + piece.length)
      have hstart : span.start - (offset + piece.length) =
          span.start - offset - piece.view.length := by
        rw [piece.length_view, Nat.sub_sub]
      have hstop : span.stop - (offset + piece.length) =
          span.stop - offset - piece.view.length := by
        rw [piece.length_view, Nat.sub_sub]
      rw [List.flatMap_cons]
      constructor
      · rw [ofPieces, List.flatMap_append, hfirst.before, hrest.before, hstart, List.take_append]
      · rw [ofPieces, List.flatMap_append, hfirst.inside, hrest.inside, hstart, hstop,
          drop_take_append]
      · rw [ofPieces, List.flatMap_append, hfirst.after, hrest.after, hstop, List.drop_append]

theorem pieces_marked (cut : Cut) (mark : InlineMark) :
    (cut.marked mark).flatMap Fragment.pieces = cut.before ++ cut.inside ++ cut.after := by
  unfold marked
  rw [List.flatMap_append, List.flatMap_append, Fragment.pieces_texts, Fragment.pieces_texts]
  cases hinside : cut.inside with
  | nil => rfl
  | cons piece rest => simp [Fragment.pieces]

theorem Shows.whole {offset : Nat} {cut : Cut} {shown : List (Char × Option String)}
    (h : span.start ≤ span.stop) (hshows : Shows span offset cut shown) :
    (cut.before ++ cut.inside ++ cut.after).flatMap StyledText.view = shown := by
  have hsplit : (shown.take (span.stop - offset)).take (span.start - offset) =
      shown.take (span.start - offset) := by
    rw [List.take_take, Nat.min_eq_left (by omega)]
  rw [List.flatMap_append, List.flatMap_append, hshows.before, hshows.inside, hshows.after,
    ← hsplit, List.take_append_drop, List.take_append_drop]

end Cut

/-!
# Marked lines
-/

namespace DiffLine

def charactersOf (pieces : List StyledText) : List Char :=
  pieces.flatMap fun piece => piece.text.toList

theorem charactersOf_eq (pieces : List StyledText) :
    charactersOf pieces = (pieces.flatMap StyledText.view).map (·.1) := by
  unfold charactersOf
  rw [List.map_flatMap]
  congr 1
  funext piece
  unfold StyledText.view
  rw [List.map_map]
  exact (List.map_id _).symm

theorem characters_eq (line : DiffLine) : line.characters = line.view.map (·.1) :=
  charactersOf_eq line.pieces

theorem kind_wrap (line : DiffLine) (span : Span) (mark : InlineMark) :
    (line.wrap span mark).kind = line.kind := by
  unfold wrap
  split <;> rfl

theorem terminator_wrap (line : DiffLine) (span : Span) (mark : InlineMark) :
    (line.wrap span mark).terminator = line.terminator := by
  unfold wrap
  split <;> rfl

theorem view_wrap {span : Span} (h : span.start ≤ span.stop) (line : DiffLine)
    (mark : InlineMark) : (line.wrap span mark).view = line.view := by
  unfold wrap
  split
  · rfl
  · unfold view pieces
    rw [Cut.pieces_marked, (Cut.shows_ofPieces h 0 _).whole h]

theorem characters_wrap {span : Span} (h : span.start ≤ span.stop) (line : DiffLine)
    (mark : InlineMark) : (line.wrap span mark).characters = line.characters := by
  rw [characters_eq, characters_eq, view_wrap h]

/-- The line is plain text but for one mark, which covers the characters of a span. -/
def MarkedOn (line : DiffLine) (mark : InlineMark) (span : Span) : Prop :=
  exists before inside after : List StyledText,
    line.fragments = before.map .text ++ .mark mark inside :: after.map .text ∧
      charactersOf before = line.characters.take span.start ∧
      charactersOf inside = span.cover line.characters ∧
      charactersOf after = line.characters.drop span.stop

def Carries (line : DiffLine) (mark : InlineMark) (span : Span) : Prop :=
  if span.isEmpty then line.hasMarks = false else line.MarkedOn mark span

def unmarked (line : DiffLine) : List Char :=
  charactersOf ((line.fragments.filter fun fragment => !fragment.isMark).flatMap Fragment.pieces)

theorem markedOn_wrap {span : Span} (line : DiffLine) (mark : InlineMark)
    (h : span.start < span.stop) (hstop : span.stop ≤ line.characters.length) :
    (line.wrap span mark).MarkedOn mark span := by
  have hshows := Cut.shows_ofPieces (Nat.le_of_lt h) 0 line.pieces
  have hcharacters := characters_wrap (Nat.le_of_lt h) line mark
  have hinside : charactersOf (Cut.ofPieces span 0 line.pieces).inside =
      span.cover line.characters := by
    rw [charactersOf_eq, hshows.inside, List.map_drop, List.map_take, ← charactersOf_eq]
    exact (List.drop_take ..).trans rfl
  have hne : (Cut.ofPieces span 0 line.pieces).inside ≠ [] := by
    intro hnil
    rw [hnil] at hinside
    have hlength := congrArg List.length hinside
    simp only [charactersOf, List.flatMap_nil, List.length_nil, Span.cover, Span.length,
      List.length_take, List.length_drop] at hlength
    omega
  have hfragments : (line.wrap span mark).fragments =
      (Cut.ofPieces span 0 line.pieces).marked mark := by
    have hsome : ¬ span.isEmpty = true := by
      simp only [Span.isEmpty, decide_eq_true_eq]
      omega
    unfold wrap
    rw [if_neg hsome]
  refine ⟨(Cut.ofPieces span 0 line.pieces).before, (Cut.ofPieces span 0 line.pieces).inside,
    (Cut.ofPieces span 0 line.pieces).after, ?_, ?_, ?_, ?_⟩
  · rw [hfragments]
    unfold Cut.marked
    rw [if_neg (by simpa using hne), List.append_assoc, List.singleton_append]
  · rw [hcharacters, charactersOf_eq, hshows.before, List.map_take, ← charactersOf_eq]
    rfl
  · rw [hcharacters, hinside]
  · rw [hcharacters, charactersOf_eq, hshows.after, List.map_drop, ← charactersOf_eq]
    rfl

/-!
What is left outside of the marks does not depend on the pieces either.
-/

theorem unmarked_of_plain {line : DiffLine} (h : line.hasMarks = false) :
    line.unmarked = line.characters := by
  have hall : line.fragments.filter (fun fragment => !fragment.isMark) = line.fragments := by
    apply List.filter_eq_self.mpr
    intro fragment hfragment
    simpa using List.any_eq_false.mp h fragment hfragment
  unfold unmarked
  rw [hall]
  rfl

theorem MarkedOn.unmarked {line : DiffLine} {mark : InlineMark} {span : Span}
    (h : line.MarkedOn mark span) : line.unmarked = span.cutOut line.characters := by
  obtain ⟨before, inside, after, hfragments, hbefore, _, hafter⟩ := h
  have hplain : forall pieces : List StyledText,
      (pieces.map Fragment.text).filter (fun fragment => !fragment.isMark) =
        pieces.map Fragment.text := by
    intro pieces
    rw [List.filter_map]
    exact congrArg _ (List.filter_eq_self.mpr fun _ _ => rfl)
  unfold DiffLine.unmarked Span.cutOut
  rw [hfragments, List.filter_append, List.flatMap_append, hplain,
    List.filter_cons_of_neg (by simp [Fragment.isMark]), hplain, Fragment.pieces_texts,
    Fragment.pieces_texts, ← hbefore, ← hafter]
  exact List.flatMap_append

theorem Carries.unmarked {line : DiffLine} {mark : InlineMark} {span : Span}
    (h : line.Carries mark span) (hspan : span.start ≤ span.stop) :
    line.unmarked = span.cutOut line.characters := by
  unfold Carries at h
  split at h
  · rename_i hempty
    have hstop : span.stop = span.start :=
      Nat.le_antisymm (of_decide_eq_true hempty) hspan
    rw [unmarked_of_plain h]
    unfold Span.cutOut
    rw [hstop, List.take_append_drop]
  · exact h.unmarked

theorem carries_wrap {span : Span} {line : DiffLine} (h : line.hasMarks = false)
    (hstop : span.stop ≤ line.characters.length) (mark : InlineMark) :
    (line.wrap span mark).Carries mark span := by
  unfold Carries
  split
  · rename_i hempty
    unfold wrap
    rw [if_pos hempty]
    exact h
  · rename_i hsome
    refine markedOn_wrap line mark ?_ hstop
    simpa [Span.isEmpty] using hsome

end DiffLine
end LessonPress

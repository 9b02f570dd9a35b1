import LessonPress.Diff.Encoding
import LessonPress.Proofs.Document.Encoding

/-!
# Published trees

## Documents and rendered diffs come back from their texts

The pieces of a rendered diff hold strings and flags only, so every list of blocks comes back.
A document comes back exactly if its numbers fit.  Either way different trees have different
texts.
-/

namespace LessonPress

open Json (Returns required nullable asString asBool)

/-!
# Rendered diffs
-/

theorem StyledText.ofJson?_fields (piece : StyledText) :
    ofJson? (.object piece.fields) = some piece := by
  have hrecord : Json.record [{ name := "text" }, { name := "style" }] (.object piece.fields) =
      some [some (.string piece.text), some (Json.optional .string piece.style)] := rfl
  have hstyle : Json.asOptional asString (Json.optional .string piece.style) = some piece.style :=
    (Json.returns_optional (fun style _ => Json.returns_string style) nofun).decoded
  unfold ofJson?
  rw [hrecord]
  simp [required, nullable, asString, hstyle]

theorem StyledText.readable_fields (piece : StyledText) : Json.ReadableFields piece.fields :=
  ⟨trivial,
    (Json.returns_optional (fun style _ => Json.returns_string style) nofun).readable, trivial⟩

theorem StyledText.returns (piece : StyledText) : Returns toJson ofJson? piece :=
  ⟨piece.ofJson?_fields, piece.readable_fields⟩

theorem InlineMark.ofJson?_name (mark : InlineMark) : ofJson? (.string mark.name) = some mark := by
  cases mark <;> rfl

theorem ChangeKind.ofJson?_name (kind : ChangeKind) : ofJson? (.string kind.name) = some kind := by
  cases kind <;> rfl

namespace Fragment

theorem readMark_object (kind : InlineMark) (pieces : List StyledText) :
    readMark (.object [("mark", .string kind.name),
      ("children", Json.list StyledText.toJson pieces)]) = some (mark kind pieces) := by
  have hrecord : Json.record [{ name := "mark" }, { name := "children" }]
      (.object [("mark", .string kind.name), ("children", Json.list StyledText.toJson pieces)]) =
      some [some (.string kind.name), some (Json.list StyledText.toJson pieces)] := rfl
  have hpieces := (Json.returns_list fun piece (_ : piece ∈ pieces) => piece.returns).decoded
  unfold readMark
  rw [hrecord]
  simp [required, InlineMark.ofJson?_name, hpieces]

theorem returns (fragment : Fragment) : Returns toJson ofJson? fragment := by
  cases fragment with
  | text piece =>
      refine ⟨?_, trivial, piece.readable_fields⟩
      unfold toJson ofJson?
      rw [Json.tagged_object rfl]
      show (StyledText.ofJson? (.object piece.fields)).map text = _
      rw [piece.ofJson?_fields]
      rfl
  | mark kind pieces =>
      refine ⟨?_, trivial, trivial, Json.readable_list fun piece _ => piece.returns.readable,
        trivial⟩
      unfold toJson ofJson?
      rw [Json.tagged_object rfl]
      exact readMark_object kind pieces

end Fragment

theorem DiffLine.returns (line : DiffLine) : Returns toJson ofJson? line where
  decoded := by
    have hrecord : Json.record [{ name := "kind" }, { name := "fragments" },
        { name := "terminator" }] line.toJson =
        some [some (.string line.kind.name), some (Json.list Fragment.toJson line.fragments),
          some (.string line.terminator)] := rfl
    have hfragments := (Json.returns_list fun fragment (_ : fragment ∈ line.fragments) =>
      fragment.returns).decoded
    unfold ofJson?
    rw [hrecord]
    simp [required, asString, ChangeKind.ofJson?_name, hfragments]
  readable :=
    ⟨trivial, Json.readable_list fun fragment _ => fragment.returns.readable, trivial, trivial⟩

theorem DiffBlock.returns (block : DiffBlock) : Returns toJson ofJson? block where
  decoded := by
    have hrecord : Json.record fieldRules block.toJson =
        some [some (.bool block.hasAdditions), some (.bool block.hasRemovals),
          some (Json.optional .string block.language),
          some (Json.list DiffLine.toJson block.lines)] := rfl
    have hlanguage : Json.asOptional asString (Json.optional .string block.language) =
        some block.language :=
      (Json.returns_optional (fun language _ => Json.returns_string language) nofun).decoded
    have hlines := (Json.returns_list fun line (_ : line ∈ block.lines) => line.returns).decoded
    unfold ofJson?
    rw [hrecord]
    simp [required, nullable, asBool, hlanguage, hlines]
  readable :=
    ⟨trivial, trivial,
      (Json.returns_optional (fun language _ => Json.returns_string language) nofun).readable,
      Json.readable_list fun line _ => line.returns.readable, trivial⟩

/-!
# Both kinds of trees
-/

namespace Json

/-- Decoding the text of a tree gives the tree, and different trees have different texts.  For
a document this takes numbers that fit, and it takes no more than that. -/
theorem trees_return (document : Document) (blocks : List DiffBlock) :
    ((ofText? document.toJson.toText).bind Document.ofJson? = some document <-> document.Fits) ∧
      (forall other : Document, document.Fits -> other.Fits ->
        (document.toJson.toText = other.toJson.toText <-> document = other)) ∧
      (ofText? (list DiffBlock.toJson blocks).toText).bind (asList DiffBlock.ofJson?) =
        some blocks ∧
      forall others : List DiffBlock,
        (list DiffBlock.toJson blocks).toText = (list DiffBlock.toJson others).toText <->
          blocks = others := by
  have hblocks : forall blocks : List DiffBlock,
      Returns (list DiffBlock.toJson) (asList DiffBlock.ofJson?) blocks :=
    fun blocks => returns_list fun block _ => block.returns
  refine ⟨⟨fun h => ?_, fun h => (Document.returns h).ofText?⟩, fun other h hother => ?_,
    (hblocks blocks).ofText?, fun others => (hblocks blocks).toText_inj (hblocks others)⟩
  · obtain ⟨value, _, hvalue⟩ := Option.bind_eq_some_iff.mp h
    exact Document.fits_of_ofJson? hvalue
  · exact (Document.returns h).toText_inj (Document.returns hother)

def nestedSample (value : AttributeValue) : Document where
  frontmatter := .ofList [("title", "\"a\"\n")]
  children :=
    [.element ⟨"Note", [], false⟩
      [.element ⟨"Video", [⟨"url", value⟩, ⟨"wide", .bare⟩], true⟩ [] ⟨2, 2⟩,
        .code ⟨none, some "start=1", "\t", none, some ⟨"a.rs", 1, [⟨1, 3⟩], true, false,
          [.solution]⟩⟩,
        .diagnostic ⟨.warning, "é", ["\x00"], some ⟨1, ""⟩⟩]
      ⟨1, 18446744073709551615⟩]

theorem fits_nestedSample (value : AttributeValue) : (nestedSample value).Fits := by
  simp [nestedSample, Document.Fits, Node.AllFit, Node.Fits, CodeBlock.Fits, ExcerptMeta.Fits,
    LineRange.Fits, Position.Fits, Diagnostic.Fits, SourceExcerpt.Fits, UInt64.size]

theorem trees_return_nested :
    (nestedSample (.string "x")).Fits ∧ (nestedSample (.expression "x")).Fits ∧
      (nestedSample (.string "x")).toJson.toText ≠ (nestedSample (.expression "x")).toJson.toText ∧
      (ofText? (nestedSample (.string "x")).toJson.toText).bind Document.ofJson? =
        some (nestedSample (.string "x")) := by
  have hreturn := trees_return (nestedSample (.string "x")) []
  refine ⟨fits_nestedSample _, fits_nestedSample _, fun htext => ?_,
    hreturn.left.mpr (fits_nestedSample _)⟩
  have heq := (hreturn.right.left _ (fits_nestedSample _) (fits_nestedSample _)).mp htext
  cases heq

end Json
end LessonPress

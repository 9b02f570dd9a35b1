import LessonPress.Document.Encoding
import LessonPress.Proofs.Json.Values
import Mathlib.Tactic.SplitIfs

/-!
# Documents and their JSON

## A tree comes back from its text exactly if its numbers fit

Lines are counted in words of 64 bits and the depth of a heading in a byte.  The decoder gives
only trees that keep to these sizes, and it gives back each of them, whatever their nesting,
strings and optional parts.
-/

namespace LessonPress

open Json (Returns required nullable asString asBool asWord)

/-!
# Positions and ranges
-/

def Position.Fits (position : Position) : Prop :=
  position.startLine < UInt64.size ∧ position.endLine < UInt64.size

instance (position : Position) : Decidable position.Fits :=
  inferInstanceAs (Decidable (_ ∧ _))

def LineRange.Fits (range : LineRange) : Prop :=
  range.start < UInt64.size ∧ range.stop < UInt64.size

instance (range : LineRange) : Decidable range.Fits :=
  inferInstanceAs (Decidable (_ ∧ _))

theorem Json.exists_of_words {alpha : Type} {make : Nat -> Nat -> alpha}
    {first second : Option Json} {made : alpha} (h : (do
      let start ← required asWord first
      let stop ← required asWord second
      some (make start stop)) = some made) :
    exists start stop, made = make start stop ∧ start < UInt64.size ∧ stop < UInt64.size := by
  simp only [Option.bind_eq_bind, Option.bind_eq_some_iff] at h
  obtain ⟨start, hstart, stop, hstop, heq⟩ := h
  obtain ⟨_, hstart⟩ := Json.exists_of_required hstart
  obtain ⟨_, hstop⟩ := Json.exists_of_required hstop
  exact ⟨start, stop, (Option.some.inj heq).symm, Json.asNat_lt hstart, Json.asNat_lt hstop⟩

theorem Position.returns {position : Position} (h : position.Fits) :
    Returns toJson ofJson? position where
  decoded := by
    have hrecord : Json.record [{ name := "startLine" }, { name := "endLine" }] position.toJson =
        some [some (.nat position.startLine), some (.nat position.endLine)] := rfl
    unfold ofJson?
    rw [hrecord]
    simp [required, Json.asWord_nat h.left, Json.asWord_nat h.right]
  readable := ⟨Json.readable_nat h.left, Json.readable_nat h.right, trivial⟩

theorem Position.fits_of_ofJson? {value : Json} {position : Position}
    (h : ofJson? value = some position) : position.Fits := by
  unfold ofJson? at h
  split at h
  · obtain ⟨startLine, endLine, rfl, hwords⟩ := Json.exists_of_words h
    exact hwords
  · cases h

theorem LineRange.returns {range : LineRange} (h : range.Fits) :
    Returns toJson ofJson? range where
  decoded := by
    have hrecord : Json.record fieldRules range.toJson =
        some [some (.nat range.start), some (.nat range.stop)] := rfl
    unfold ofJson?
    rw [hrecord]
    simp [required, Json.asWord_nat h.left, Json.asWord_nat h.right]
  readable := ⟨Json.readable_nat h.left, Json.readable_nat h.right, trivial⟩

theorem LineRange.fits_of_ofJson? {value : Json} {range : LineRange}
    (h : ofJson? value = some range) : range.Fits := by
  unfold ofJson? at h
  split at h
  · obtain ⟨start, stop, rfl, hwords⟩ := Json.exists_of_words h
    exact hwords
  · cases h

/-!
# Attributes
-/

theorem AttributeValue.returns (value : AttributeValue) : Returns toJson ofJson? value := by
  cases value with
  | string text => exact ⟨rfl, trivial, trivial, trivial⟩
  | expression text => exact ⟨rfl, trivial, trivial, trivial⟩
  | bare => exact ⟨rfl, trivial, trivial⟩

theorem Attribute.returns (entry : Attribute) : Returns toJson ofJson? entry where
  decoded := by
    have hrecord : Json.record [{ name := "name" }, { name := "value" }] entry.toJson =
        some [some (.string entry.name), some entry.value.toJson] := rfl
    unfold ofJson?
    rw [hrecord]
    simp [required, asString, entry.value.returns.decoded]
  readable := ⟨trivial, entry.value.returns.readable, trivial⟩

/-!
# Code blocks
-/

def ExcerptMeta.Fits (excerpt : ExcerptMeta) : Prop :=
  excerpt.startLine < UInt64.size ∧ forall range, range ∈ excerpt.highlight -> range.Fits

def CodeBlock.Fits (block : CodeBlock) : Prop :=
  (forall position, position ∈ block.position -> position.Fits) ∧
    forall excerpt, excerpt ∈ block.excerpt -> excerpt.Fits

theorem Button.returns (button : Button) : Returns toJson ofJson? button := by
  refine ⟨?_, trivial⟩
  cases button <;> rfl

namespace ExcerptMeta

theorem returns {excerpt : ExcerptMeta} (h : excerpt.Fits) : Returns toJson ofJson? excerpt where
  decoded := by
    have hrecord : Json.record fieldRules excerpt.toJson =
        some [some (.string excerpt.fileName), some (.nat excerpt.startLine),
          some (RangeList.toJson excerpt.highlight), some (.bool excerpt.showLineNumbers),
          some (.bool excerpt.allowCopy),
          some (Json.list Button.toJson excerpt.buttons)] := rfl
    have hhighlight : RangeList.ofJson? (RangeList.toJson excerpt.highlight) =
        some excerpt.highlight :=
      (Json.returns_list fun range hrange => LineRange.returns (h.right range hrange)).decoded
    have hbuttons := (Json.returns_list fun button (_ : button ∈ excerpt.buttons) =>
      button.returns).decoded
    unfold ofJson?
    rw [hrecord]
    simp [required, asString, asBool, Json.asWord_nat h.left, hhighlight, hbuttons]
  readable :=
    ⟨trivial, Json.readable_nat h.left,
      Json.readable_list fun range hrange => (LineRange.returns (h.right range hrange)).readable,
      trivial, trivial, Json.readable_list fun button _ => button.returns.readable, trivial⟩

theorem fits_of_ofJson? {value : Json} {excerpt : ExcerptMeta}
    (h : ofJson? value = some excerpt) : excerpt.Fits := by
  unfold ofJson? at h
  split at h
  · simp only [Option.bind_eq_bind, Option.bind_eq_some_iff] at h
    obtain ⟨_, _, startLine, hstart, highlight, hhighlight, _, _, _, _, _, _, heq⟩ := h
    cases heq
    obtain ⟨_, hstart⟩ := Json.exists_of_required hstart
    obtain ⟨_, hhighlight⟩ := Json.exists_of_required hhighlight
    refine ⟨Json.asNat_lt hstart, fun range hrange => ?_⟩
    obtain ⟨_, hrange⟩ := Json.exists_of_asList hhighlight hrange
    exact LineRange.fits_of_ofJson? hrange
  · cases h

end ExcerptMeta

namespace CodeBlock

theorem ofJson?_fields {block : CodeBlock} (h : block.Fits) :
    ofJson? (.object block.fields) = some block := by
  rcases block with ⟨lang, info, value, position, excerpt⟩
  have hlang : Json.asOptional asString (Json.optional .string lang) = some lang :=
    (Json.returns_optional (fun text _ => Json.returns_string text) nofun).decoded
  have hinfo : Json.asOptional asString (Json.optional .string info) = some info :=
    (Json.returns_optional (fun text _ => Json.returns_string text) nofun).decoded
  have hposition : Json.asOptional Position.ofJson? (Json.optional Position.toJson position) =
      some position :=
    (Json.returns_optional (fun found hfound => Position.returns (h.left found hfound))
      nofun).decoded
  cases excerpt with
  | none =>
      have hrecord : Json.record fieldRules (.object (fields ⟨lang, info, value, position, none⟩)) =
          some [some (Json.optional .string lang), some (Json.optional .string info),
            some (.string value), some (Json.optional Position.toJson position), none] := rfl
      unfold ofJson?
      rw [hrecord]
      simp [required, nullable, asString, hlang, hinfo, hposition]
  | some excerpt =>
      have hrecord : Json.record fieldRules
          (.object (fields ⟨lang, info, value, position, some excerpt⟩)) =
          some [some (Json.optional .string lang), some (Json.optional .string info),
            some (.string value), some (Json.optional Position.toJson position),
            some excerpt.toJson] := rfl
      have hexcerpt : Json.asOptional ExcerptMeta.ofJson?
          (Json.optional ExcerptMeta.toJson (some excerpt)) = some (some excerpt) :=
        (Json.returns_optional (fun found hfound => ExcerptMeta.returns (h.right found hfound))
          fun _ heq => Json.noConfusion heq).decoded
      rw [Json.optional] at hexcerpt
      unfold ofJson?
      rw [hrecord]
      simp [required, nullable, asString, hlang, hinfo, hposition, hexcerpt]

theorem readable_fields {block : CodeBlock} (h : block.Fits) :
    Json.ReadableFields block.fields := by
  rcases block with ⟨lang, info, value, position, excerpt⟩
  have htext : forall text : Option String, (Json.optional .string text).Readable := by
    intro text
    cases text <;> exact trivial
  have hposition : (Json.optional Position.toJson position).Readable :=
    (Json.returns_optional (fun found hfound => Position.returns (h.left found hfound))
      nofun).readable
  cases excerpt with
  | none => exact ⟨htext lang, htext info, trivial, hposition, trivial⟩
  | some excerpt =>
      exact ⟨htext lang, htext info, trivial, hposition,
        (ExcerptMeta.returns (h.right excerpt rfl)).readable, trivial⟩

theorem fits_of_ofJson? {value : Json} {block : CodeBlock}
    (h : ofJson? value = some block) : block.Fits := by
  unfold ofJson? at h
  split at h
  · simp only [Option.bind_eq_bind, Option.bind_eq_some_iff] at h
    obtain ⟨_, _, _, _, _, _, position, hposition, excerpt, hexcerpt, heq⟩ := h
    cases heq
    constructor
    · intro found hfound
      cases hfound
      obtain ⟨_, hfound⟩ := Json.exists_of_nullable hposition
      exact Position.fits_of_ofJson? hfound
    · intro found hfound
      cases hfound
      obtain ⟨_, hfound⟩ := Json.exists_of_nullable hexcerpt
      exact ExcerptMeta.fits_of_ofJson? hfound
  · cases h

end CodeBlock

/-!
# Diagnostics
-/

def SourceExcerpt.Fits (excerpt : SourceExcerpt) : Prop :=
  excerpt.startLine < UInt64.size

def Diagnostic.Fits (content : Diagnostic) : Prop :=
  forall excerpt, excerpt ∈ content.excerpt -> excerpt.Fits

theorem SourceExcerpt.returns {excerpt : SourceExcerpt} (h : excerpt.Fits) :
    Returns toJson ofJson? excerpt where
  decoded := by
    have hrecord : Json.record [{ name := "startLine" }, { name := "text" }] excerpt.toJson =
        some [some (.nat excerpt.startLine), some (.string excerpt.text)] := rfl
    unfold ofJson?
    rw [hrecord]
    simp [required, asString, Json.asWord_nat h]
  readable := ⟨Json.readable_nat h, trivial, trivial⟩

theorem SourceExcerpt.fits_of_ofJson? {value : Json} {excerpt : SourceExcerpt}
    (h : ofJson? value = some excerpt) : excerpt.Fits := by
  unfold ofJson? at h
  split at h
  · simp only [Option.bind_eq_bind, Option.bind_eq_some_iff] at h
    obtain ⟨startLine, hstart, _, _, heq⟩ := h
    cases heq
    obtain ⟨_, hstart⟩ := Json.exists_of_required hstart
    exact Json.asNat_lt hstart
  · cases h

theorem Severity.ofJson?_name (severity : Severity) :
    ofJson? (.string severity.name) = some severity := by
  cases severity <;> rfl

namespace Diagnostic

theorem ofJson?_fields {content : Diagnostic} (h : content.Fits) :
    ofJson? (.object content.fields) = some content := by
  have hrecord : Json.record fieldRules (.object content.fields) =
      some [some (.string content.severity.name), some (.string content.title),
        some (Json.strings content.messages),
        some (Json.optional SourceExcerpt.toJson content.excerpt)] := rfl
  have hmessages := (Json.returns_strings content.messages).decoded
  have hexcerpt : Json.asOptional SourceExcerpt.ofJson?
      (Json.optional SourceExcerpt.toJson content.excerpt) = some content.excerpt :=
    (Json.returns_optional (fun found hfound => SourceExcerpt.returns (h found hfound))
      nofun).decoded
  unfold ofJson?
  rw [hrecord]
  simp [required, nullable, asString, Severity.ofJson?_name, hmessages, hexcerpt]

theorem readable_fields {content : Diagnostic} (h : content.Fits) :
    Json.ReadableFields content.fields :=
  ⟨trivial, trivial, (Json.returns_strings content.messages).readable,
    (Json.returns_optional (fun found hfound => SourceExcerpt.returns (h found hfound))
      nofun).readable, trivial⟩

theorem fits_of_ofJson? {value : Json} {content : Diagnostic}
    (h : ofJson? value = some content) : content.Fits := by
  unfold ofJson? at h
  split at h
  · simp only [Option.bind_eq_bind, Option.bind_eq_some_iff] at h
    obtain ⟨_, _, _, _, _, _, excerpt, hexcerpt, heq⟩ := h
    cases heq
    intro found hfound
    cases hfound
    obtain ⟨_, hfound⟩ := Json.exists_of_nullable hexcerpt
    exact SourceExcerpt.fits_of_ofJson? hfound
  · cases h

end Diagnostic

/-!
# Nodes
-/

namespace Node

mutual

/-- Every number in the node fits where it is kept. -/
def Fits : Node -> Prop
  | heading depth _ position => depth < 256 ∧ position.Fits
  | paragraph _ position => position.Fits
  | html _ position => position.Fits
  | thematicBreak position => position.Fits
  | code block => block.Fits
  | element _ children position => AllFit children ∧ position.Fits
  | diagnostic content => content.Fits

def AllFit : List Node -> Prop
  | [] => True
  | node :: rest => node.Fits ∧ AllFit rest

end

theorem allFit_iff {nodes : List Node} :
    AllFit nodes <-> forall node, node ∈ nodes -> node.Fits := by
  induction nodes with
  | nil => simp [AllFit]
  | cons node rest ih => simp [AllFit, ih]

mutual

theorem readable_toJson : (node : Node) -> node.Fits -> node.toJson.Readable
  | heading depth text position, h =>
      ⟨trivial, Json.readable_nat (Nat.lt_trans h.left (by decide)), trivial,
        (Position.returns h.right).readable, trivial⟩
  | paragraph text position, h => ⟨trivial, trivial, (Position.returns h).readable, trivial⟩
  | html value position, h => ⟨trivial, trivial, (Position.returns h).readable, trivial⟩
  | thematicBreak position, h => ⟨trivial, (Position.returns h).readable, trivial⟩
  | code block, h => ⟨trivial, CodeBlock.readable_fields h⟩
  | element tag children position, h =>
      ⟨trivial, trivial, Json.readable_list fun entry _ => entry.returns.readable,
        readable_listToJson children h.left, trivial, (Position.returns h.right).readable,
        trivial⟩
  | diagnostic content, h => ⟨trivial, Diagnostic.readable_fields h⟩

theorem readable_listToJson : (nodes : List Node) -> AllFit nodes ->
    Json.ReadableItems (listToJson nodes)
  | [], _ => trivial
  | node :: rest, h => ⟨readable_toJson node h.left, readable_listToJson rest h.right⟩

end

/-!
# Reading nodes back
-/

theorem readHeading_object {depth : Nat} {position : Position} (hdepth : depth < 256)
    (hposition : position.Fits) (text : String) :
    readHeading (.object [("depth", .nat depth), ("text", .string text),
      ("position", position.toJson)]) = some (heading depth text position) := by
  have hrecord : Json.record [{ name := "depth" }, { name := "text" }, { name := "position" }]
      (.object [("depth", .nat depth), ("text", .string text), ("position", position.toJson)]) =
      some [some (.nat depth), some (.string text), some position.toJson] := rfl
  unfold readHeading
  rw [hrecord]
  simp [required, asString, Json.asNat_nat hdepth, (Position.returns hposition).decoded]

theorem readText_object (field : String) (node : String -> Position -> Node)
    {position : Position} (h : position.Fits)
    (hrecord : forall text place, Json.record [{ name := field }, { name := "position" }]
      (.object [(field, text), ("position", place)]) = some [some text, some place])
    (text : String) :
    readText field node (.object [(field, .string text), ("position", position.toJson)]) =
      some (node text position) := by
  unfold readText
  rw [hrecord]
  simp [required, asString, (Position.returns h).decoded]

theorem readThematicBreak_object {position : Position} (h : position.Fits) :
    readThematicBreak (.object [("position", position.toJson)]) =
      some (thematicBreak position) := by
  have hrecord : Json.record [{ name := "position" }]
      (.object [("position", position.toJson)]) = some [some position.toJson] := rfl
  unfold readThematicBreak
  rw [hrecord]
  simp [required, (Position.returns h).decoded]

def elementFields (tag : Tag) (children : List Json) (position : Position) :
    List (String × Json) :=
  [("name", .string tag.name), ("attributes", Json.list Attribute.toJson tag.attributes),
    ("children", .array children), ("selfClosing", .bool tag.selfClosing),
    ("position", position.toJson)]

theorem readElement_object {tag : Tag} {items : List Json} {children : List Node}
    {position : Position} {readChild : Json -> Option Node} (h : position.Fits)
    (hchildren : Json.asList readChild (.array items) = some children) :
    readElement readChild (.object (elementFields tag items position)) =
      some (element tag children position) := by
  have hrecord : Json.record elementRules (.object (elementFields tag items position)) =
      some [some (.string tag.name), some (Json.list Attribute.toJson tag.attributes),
        some (.array items), some (.bool tag.selfClosing), some position.toJson] := rfl
  have hentries := (Json.returns_list fun entry (_ : entry ∈ tag.attributes) =>
    entry.returns).decoded
  unfold readElement
  rw [hrecord]
  simp [required, asString, asBool, hentries, hchildren, (Position.returns h).decoded]

theorem read_tagged {kind : String} {fields : List (String × Json)}
    (h : Json.occurrences "type" fields = 0) (levels : Nat) :
    read (levels + 1) (tagged kind fields) =
      if kind = "heading" then readHeading (.object fields)
      else if kind = "paragraph" then readText "text" paragraph (.object fields)
      else if kind = "html" then readText "value" html (.object fields)
      else if kind = "thematicBreak" then readThematicBreak (.object fields)
      else if kind = "code" then (CodeBlock.ofJson? (.object fields)).map code
      else if kind = "element" then readElement (read levels) (.object fields)
      else if kind = "diagnostic" then (Diagnostic.ofJson? (.object fields)).map diagnostic
      else none := by
  unfold tagged read
  rw [Json.tagged_object h]

theorem height_pos (node : Node) : 0 < node.toJson.height := by
  cases node <;> exact Nat.succ_pos _

theorem height_children_lt (tag : Tag) (children : List Node) (position : Position) :
    Json.heightItems (listToJson children) < (element tag children position).toJson.height := by
  simp only [toJson, tagged, Json.height, Json.heightFields]
  omega

theorem occurrences_code (block : CodeBlock) : Json.occurrences "type" block.fields = 0 := by
  rcases block with ⟨lang, info, value, position, excerpt⟩
  cases excerpt <;> rfl

mutual

theorem read_toJson : (node : Node) -> node.Fits -> forall levels : Nat,
    node.toJson.height ≤ levels -> read levels node.toJson = some node
  | node, _, 0, hlevels => absurd node.height_pos (Nat.not_lt.mpr hlevels)
  | heading depth text position, h, levels + 1, _ => by
      rw [toJson, read_tagged rfl]
      exact readHeading_object h.left h.right text
  | paragraph text position, h, levels + 1, _ => by
      rw [toJson, read_tagged rfl]
      exact readText_object "text" paragraph h (fun _ _ => rfl) text
  | html value position, h, levels + 1, _ => by
      rw [toJson, read_tagged rfl]
      exact readText_object "value" html h (fun _ _ => rfl) value
  | thematicBreak position, h, levels + 1, _ => by
      rw [toJson, read_tagged rfl]
      exact readThematicBreak_object h
  | code block, h, levels + 1, _ => by
      rw [toJson, read_tagged (occurrences_code block)]
      show (CodeBlock.ofJson? (.object block.fields)).map code = _
      rw [CodeBlock.ofJson?_fields h]
      rfl
  | element tag children position, h, levels + 1, hlevels => by
      have hheight := height_children_lt tag children position
      have hchildren := allSome_read children h.left levels (by omega)
      rw [toJson, read_tagged rfl]
      exact readElement_object h.right hchildren
  | diagnostic content, h, levels + 1, _ => by
      rw [toJson, read_tagged rfl]
      show (Diagnostic.ofJson? (.object content.fields)).map diagnostic = _
      rw [Diagnostic.ofJson?_fields h]
      rfl

theorem allSome_read : (nodes : List Node) -> AllFit nodes -> forall levels : Nat,
    Json.heightItems (listToJson nodes) ≤ levels ->
    Json.allSome ((listToJson nodes).map (read levels)) = some nodes
  | [], _, _, _ => rfl
  | node :: rest, h, levels, hlevels => by
      rw [listToJson, Json.heightItems] at hlevels
      have hnode := read_toJson node h.left levels (Nat.le_trans (Nat.le_max_left _ _) hlevels)
      have hrest := allSome_read rest h.right levels
        (Nat.le_trans (Nat.le_max_right _ _) hlevels)
      rw [listToJson, List.map_cons, hnode, Json.allSome, hrest]
      rfl

end

theorem listToJson_eq_map (nodes : List Node) : listToJson nodes = nodes.map toJson := by
  induction nodes with
  | nil => rfl
  | cons node rest ih => rw [listToJson, ih, List.map_cons]

theorem ofJson?_toJson {node : Node} (h : node.Fits) : ofJson? node.toJson = some node :=
  read_toJson node h node.toJson.height (Nat.le_refl _)

/-!
# What the reader of nodes can give
-/

section Given

variable {content : Json} {node : Node}

theorem fits_of_readHeading (h : readHeading content = some node) : node.Fits := by
  unfold readHeading at h
  split at h
  · simp only [Option.bind_eq_bind, Option.bind_eq_some_iff] at h
    obtain ⟨depth, hdepth, _, _, position, hposition, heq⟩ := h
    cases heq
    obtain ⟨_, hdepth⟩ := Json.exists_of_required hdepth
    obtain ⟨_, hposition⟩ := Json.exists_of_required hposition
    exact ⟨Json.asNat_lt hdepth, Position.fits_of_ofJson? hposition⟩
  · cases h

theorem fits_of_readText {field : String} {make : String -> Position -> Node}
    (hmake : forall text position, position.Fits -> (make text position).Fits)
    (h : readText field make content = some node) : node.Fits := by
  unfold readText at h
  split at h
  · simp only [Option.bind_eq_bind, Option.bind_eq_some_iff] at h
    obtain ⟨text, _, position, hposition, heq⟩ := h
    cases heq
    obtain ⟨_, hposition⟩ := Json.exists_of_required hposition
    exact hmake text position (Position.fits_of_ofJson? hposition)
  · cases h

theorem fits_of_readThematicBreak (h : readThematicBreak content = some node) : node.Fits := by
  unfold readThematicBreak at h
  split at h
  · obtain ⟨position, hposition, heq⟩ := Option.map_eq_some_iff.mp h
    cases heq
    obtain ⟨_, hposition⟩ := Json.exists_of_required hposition
    exact Position.fits_of_ofJson? hposition
  · cases h

theorem fits_of_readElement {readChild : Json -> Option Node}
    (hchild : forall value child, readChild value = some child -> child.Fits)
    (h : readElement readChild content = some node) : node.Fits := by
  unfold readElement at h
  split at h
  · simp only [Option.bind_eq_bind, Option.bind_eq_some_iff] at h
    obtain ⟨_, _, _, _, children, hchildren, _, _, position, hposition, heq⟩ := h
    cases heq
    obtain ⟨_, hchildren⟩ := Json.exists_of_required hchildren
    obtain ⟨_, hposition⟩ := Json.exists_of_required hposition
    refine ⟨allFit_iff.mpr fun child hmem => ?_, Position.fits_of_ofJson? hposition⟩
    obtain ⟨value, hvalue⟩ := Json.exists_of_asList hchildren hmem
    exact hchild value child hvalue
  · cases h

end Given

theorem fits_of_read {levels : Nat} {value : Json} {node : Node}
    (h : read levels value = some node) : node.Fits := by
  induction levels generalizing value node with
  | zero => cases h
  | succ levels ih =>
      unfold read at h
      split at h
      · cases h
      · split_ifs at h
        · exact fits_of_readHeading h
        · refine fits_of_readText ?_ h
          exact fun _ _ hposition => hposition
        · refine fits_of_readText ?_ h
          exact fun _ _ hposition => hposition
        · exact fits_of_readThematicBreak h
        · obtain ⟨block, hblock, heq⟩ := Option.map_eq_some_iff.mp h
          cases heq
          exact CodeBlock.fits_of_ofJson? hblock
        · exact fits_of_readElement (fun _ _ hchild => ih hchild) h
        · obtain ⟨found, hfound, heq⟩ := Option.map_eq_some_iff.mp h
          cases heq
          exact Diagnostic.fits_of_ofJson? hfound

end Node

/-!
# Documents
-/

namespace Document

def Fits (document : Document) : Prop :=
  Node.AllFit document.children

theorem readFrontmatter_json (frontmatter : SortedMap String) :
    readFrontmatter (frontmatterJson frontmatter) = some frontmatter := by
  have hall : forall entries : List (String × String),
      Json.allSome ((entries.map fun entry => (entry.1, Json.string entry.2)).map fun entry =>
        (asString entry.2).map (entry.1, ·)) = some entries := by
    intro entries
    induction entries with
    | nil => rfl
    | cons entry rest ih =>
        rw [List.map_cons, List.map_cons]
        show (Json.allSome _).map (entry :: ·) = _
        rw [ih]
        rfl
  unfold readFrontmatter frontmatterJson
  dsimp only
  rw [hall, Option.map_some, SortedMap.ofList_entries]

theorem readable_frontmatterJson (frontmatter : SortedMap String) :
    (frontmatterJson frontmatter).Readable := by
  have hall : forall entries : List (String × String),
      Json.ReadableFields (entries.map fun entry => (entry.1, Json.string entry.2)) := by
    intro entries
    induction entries with
    | nil => exact trivial
    | cons entry rest ih => exact ⟨trivial, ih⟩
  exact hall frontmatter.entries

theorem returns {document : Document} (h : document.Fits) :
    Returns toJson ofJson? document where
  decoded := by
    have hrecord : Json.record [{ name := "frontmatter" }, { name := "children" }]
        document.toJson = some [some (frontmatterJson document.frontmatter),
          some (.array (Node.listToJson document.children))] := rfl
    have hchildren : Json.asList Node.ofJson? (.array (Node.listToJson document.children)) =
        some document.children := by
      rw [Node.listToJson_eq_map]
      exact Json.asList_list fun node hnode =>
        Node.ofJson?_toJson (Node.allFit_iff.mp h node hnode)
    unfold ofJson?
    rw [hrecord]
    simp [required, readFrontmatter_json, hchildren]
  readable :=
    ⟨readable_frontmatterJson document.frontmatter, Node.readable_listToJson document.children h,
      trivial⟩

theorem fits_of_ofJson? {value : Json} {document : Document}
    (h : ofJson? value = some document) : document.Fits := by
  unfold ofJson? at h
  split at h
  · simp only [Option.bind_eq_bind, Option.bind_eq_some_iff] at h
    obtain ⟨_, _, children, hchildren, heq⟩ := h
    cases heq
    obtain ⟨_, hchildren⟩ := Json.exists_of_required hchildren
    apply Node.allFit_iff.mpr
    intro node hnode
    obtain ⟨value, hvalue⟩ := Json.exists_of_asList hchildren hnode
    exact Node.fits_of_read hvalue
  · cases h

end Document
end LessonPress

import LessonPress.Proofs.Embed.Validity
import LessonPress.Proofs.Range.Order
import Mathlib.Data.List.Nodup

/-!
# Accepted directives

## What a tag has to say to be taken for a directive

Each attribute is either absent or has a value of its own form; no other attribute is there, and
none is there twice.  The ranges have to lie inside the file, and what is highlighted inside one
of the ranges.  The directive is made of these values.
-/

namespace LessonPress

open Text

theorem Button.name_of_ofName? {text : String} {button : Button} (h : ofName? text = some button) :
    button.name = text := by
  unfold ofName? at h
  split at h
  · rename_i htext
    rw [htext, ← Option.some.inj h]
    rfl
  · split at h
    · rename_i htext
      rw [htext, ← Option.some.inj h]
      rfl
    · split at h
      · rename_i htext
        rw [htext, ← Option.some.inj h]
        rfl
      · cases h

theorem Sources.get_eq_ok_iff {sources : Sources} {path : FilePath} {source : SourceText} :
    sources.get path = .ok source <-> sources.find? path = some (.text source) := by
  unfold get
  cases sources.find? path with
  | none => simp
  | some loaded => cases loaded <;> simp

namespace Directive

section Attributes

variable (tag : Tag) (name : String)

def GivesRanges (ranges : RangeList) : Prop :=
  (tag.attribute? name = none ∧ ranges = []) ∨
    exists text, tag.attribute? name = some (.string text) ∧ RangeList.parse text = .ok ranges

def GivesFlag (flag : Bool) : Prop :=
  ((tag.attribute? name = none ∨ tag.attribute? name = some .bare) ∧ flag = true) ∨
    exists text, (tag.attribute? name = some (.string text) ∨
        tag.attribute? name = some (.expression text)) ∧
      ((trimmed text = "true" ∧ flag = true) ∨ (trimmed text = "false" ∧ flag = false))

def GivesButtons (buttons : List Button) : Prop :=
  (tag.attribute? "buttons" = none ∧ buttons = []) ∨
    exists text items, exists all : List Button, tag.attribute? "buttons" = some (.string text) ∧
      Pieces ',' text.toList items ∧
      (items.map fun item => String.ofList (trim item)) = all.map Button.name ∧
      buttons = all.eraseDups

def GivesFile (file : String) : Prop :=
  exists text, tag.attribute? "file" = some (.string text) ∧ isBlankLine text.toList = false ∧
    file = trimmed text

end Attributes

/-- A tag with its directory and the loaded files says all that the directive holds, and nothing
that it must not say. -/
structure Accepted (tag : Tag) (directory : FilePath) (sources : Sources) (directive : Directive) :
    Prop where
  known : forall entry, entry ∈ tag.attributes -> entry.name ∈ knownAttributes
  once : (tag.attributes.map Attribute.name).Nodup
  file : GivesFile tag directive.file
  source : sources.find? (resolve directory directive.file) = some (.text directive.source)
  ranges : GivesRanges tag "range" directive.ranges
  inside : forall range, range ∈ directive.ranges -> range.stop ≤ directive.source.lineCount
  highlight : GivesRanges tag "highlight" directive.highlight
  covered : forall inner, inner ∈ directive.highlight ->
    (tag.attribute? "range" = none ∧ 1 ≤ inner.start ∧
        inner.stop ≤ max directive.source.lineCount 1) ∨
      exists outer, outer ∈ directive.ranges ∧ outer.start ≤ inner.start ∧ inner.stop ≤ outer.stop
  lineNumbers : GivesFlag tag "showLineNumbers" directive.showLineNumbers
  copy : GivesFlag tag "allowCopy" directive.allowCopy
  buttons : GivesButtons tag directive.buttons

variable {tag : Tag} {directory : FilePath} {sources : Sources} {name : String}

/-!
# Names
-/

theorem countP_name (entries : List Attribute) (name : String) :
    (entries.countP fun entry => entry.name == name) =
      (entries.map Attribute.name).count name := by
  rw [List.count, List.countP_map]
  rfl

theorem nameFaults_eq_nil_iff :
    nameFaults tag = [] <->
      (forall entry, entry ∈ tag.attributes -> entry.name ∈ knownAttributes) ∧
        (tag.attributes.map Attribute.name).Nodup := by
  unfold nameFaults
  rw [List.append_eq_nil_iff, List.map_eq_nil_iff, List.map_eq_nil_iff, List.filter_eq_nil_iff,
    List.filter_eq_nil_iff]
  constructor
  · rintro ⟨hunknown, hrepeated⟩
    have hknown : forall entry, entry ∈ tag.attributes -> entry.name ∈ knownAttributes := by
      intro entry hentry
      simpa using hunknown entry hentry
    refine ⟨hknown, List.nodup_iff_count_le_one.mpr fun name => ?_⟩
    by_cases hname : name ∈ knownAttributes
    · have hcount := hrepeated name hname
      rw [decide_eq_true_eq, countP_name] at hcount
      omega
    · rw [List.count_eq_zero.mpr fun hmem => ?_]
      · exact Nat.zero_le 1
      · rcases List.mem_map.mp hmem with ⟨entry, hentry, rfl⟩
        exact hname (hknown entry hentry)
  · rintro ⟨hknown, honce⟩
    constructor
    · intro entry hentry
      simpa using hknown entry hentry
    · intro name _
      have hcount := List.nodup_iff_count_le_one.mp honce name
      rw [decide_eq_true_eq, countP_name]
      omega

/-!
# Values
-/

theorem stringAttribute_eq_ok_none_iff :
    stringAttribute tag name = .ok none <-> tag.attribute? name = none := by
  unfold stringAttribute
  cases tag.attribute? name with
  | none => simp
  | some value => cases value <;> simp

theorem stringAttribute_eq_ok_some_iff {text : String} :
    stringAttribute tag name = .ok (some text) <-> tag.attribute? name = some (.string text) := by
  unfold stringAttribute
  cases tag.attribute? name with
  | none => simp
  | some value => cases value <;> simp

theorem readFile_eq_ok_iff {file : String} : readFile tag = .ok file <-> GivesFile tag file := by
  unfold readFile
  constructor
  · intro h
    cases htext : stringAttribute tag "file" with
    | error fault =>
        rw [htext] at h
        cases h
    | ok value =>
        rw [htext] at h
        cases value with
        | none => cases h
        | some text =>
            dsimp only at h
            split at h
            · cases h
            · rename_i hblank
              exact ⟨text, stringAttribute_eq_ok_some_iff.mp htext, by simpa using hblank,
                (Except.ok.inj h).symm⟩
  · rintro ⟨text, htext, hblank, rfl⟩
    rw [stringAttribute_eq_ok_some_iff.mpr htext]
    dsimp only
    rw [hblank, if_neg Bool.false_ne_true]

theorem readRanges_eq_iff {ranges : RangeList} :
    readRanges tag name = (ranges, []) <-> GivesRanges tag name ranges := by
  unfold readRanges
  constructor
  · intro h
    cases htext : stringAttribute tag name with
    | error fault =>
        rw [htext] at h
        cases h
    | ok value =>
        rw [htext] at h
        cases value with
        | none =>
            cases h
            exact Or.inl ⟨stringAttribute_eq_ok_none_iff.mp htext, rfl⟩
        | some text =>
            dsimp only at h
            cases hparse : RangeList.parse text with
            | error faults =>
                rw [hparse, Prod.mk.injEq, List.map_eq_nil_iff] at h
                exact absurd h.right (RangeList.ne_nil_of_parse_error hparse)
            | ok found =>
                rw [hparse] at h
                cases h
                exact Or.inr ⟨text, stringAttribute_eq_ok_some_iff.mp htext, hparse⟩
  · rintro (⟨hnone, rfl⟩ | ⟨text, htext, hparse⟩)
    · rw [stringAttribute_eq_ok_none_iff.mpr hnone]
    · rw [stringAttribute_eq_ok_some_iff.mpr htext]
      dsimp only
      rw [hparse]

theorem readFlag_eq_iff {flag : Bool} :
    readFlag tag name = (flag, []) <-> GivesFlag tag name flag := by
  have hword : forall word : String, (if word = "true" then (true, [])
      else if word = "false" then (false, [])
      else (true, [DirectiveFault.notABoolean name word])) = (flag, []) <->
        (word = "true" ∧ flag = true) ∨ (word = "false" ∧ flag = false) := by
    intro word
    by_cases htrue : word = "true"
    · simp [htrue, eq_comm]
    · by_cases hfalse : word = "false"
      · simp [hfalse, eq_comm]
      · simp [htrue, hfalse]
  unfold readFlag GivesFlag
  dsimp only
  cases tag.attribute? name with
  | none => simp [eq_comm]
  | some value =>
      cases value with
      | bare => simp [eq_comm]
      | string text => simpa using hword (trimmed text)
      | expression text => simpa using hword (trimmed text)

theorem readButtonItems_names (known all : List Button) :
    readButtonItems known (all.map Button.name) =
      (known ++ (all.filter fun button => !known.contains button).eraseDups, []) := by
  induction all generalizing known with
  | nil => simp [readButtonItems]
  | cons button rest ih =>
      rw [List.map_cons, readButtonItems, Button.ofName?_name]
      dsimp only
      rw [ih]
      by_cases hknown : known.contains button = true
      · rw [if_pos hknown, List.filter_cons_of_neg (by rw [hknown]; decide)]
      · rw [if_neg hknown, List.filter_cons_of_pos (by simpa using hknown), List.eraseDups_cons,
          List.filter_filter, List.append_assoc, List.singleton_append]
        have hlater : (rest.filter fun other => !(known ++ [button]).contains other) =
            rest.filter fun other => (!other == button) && !known.contains other := by
          apply List.filter_congr
          intro other _
          rw [Bool.eq_iff_iff]
          simp [and_comm]
        rw [hlater]

theorem exists_names_of_readButtonItems {known buttons : List Button} {items : List String}
    (h : readButtonItems known items = (buttons, [])) :
    exists all : List Button, items = all.map Button.name := by
  induction items generalizing known with
  | nil => exact ⟨[], rfl⟩
  | cons item rest ih =>
      rw [readButtonItems] at h
      cases hitem : Button.ofName? item with
      | none =>
          rw [hitem] at h
          cases h
      | some button =>
          rw [hitem] at h
          rcases ih h with ⟨all, hall⟩
          exact ⟨button :: all, by rw [List.map_cons, hall, Button.name_of_ofName? hitem]⟩

theorem readButtons_eq_iff {buttons : List Button} :
    readButtons tag = (buttons, []) <-> GivesButtons tag buttons := by
  unfold readButtons
  constructor
  · intro h
    cases htext : stringAttribute tag "buttons" with
    | error fault =>
        rw [htext] at h
        cases h
    | ok value =>
        rw [htext] at h
        cases value with
        | none =>
            cases h
            exact Or.inl ⟨stringAttribute_eq_ok_none_iff.mp htext, rfl⟩
        | some text =>
            dsimp only at h
            rcases exists_names_of_readButtonItems h with ⟨all, hall⟩
            rw [hall, readButtonItems_names] at h
            refine Or.inr ⟨text, splitAt ',' text.toList, all,
              stringAttribute_eq_ok_some_iff.mp htext, pieces_iff.mpr rfl, hall, ?_⟩
            simpa using (Prod.mk.inj h).left.symm
  · rintro (⟨hnone, rfl⟩ | ⟨text, items, all, htext, hitems, hall, rfl⟩)
    · rw [stringAttribute_eq_ok_none_iff.mpr hnone]
    · rw [stringAttribute_eq_ok_some_iff.mpr htext]
      dsimp only
      rw [pieces_iff.mp hitems, hall, readButtonItems_names]
      simp

/-!
# Ranges in the file
-/

theorem rangeFaults_eq_nil_iff {ranges highlight : RangeList} {source : SourceText} :
    rangeFaults ranges highlight source = [] <->
      (forall range, range ∈ ranges -> range.stop ≤ source.lineCount) ∧
        forall inner, inner ∈ highlight -> (coveringRanges ranges source).covers inner = true := by
  unfold rangeFaults RangeList.outOfBounds
  simp

/-!
# The directive
-/

theorem faultsIn_eq_nil_iff {source : SourceText} :
    faultsIn tag source = [] <->
      nameFaults tag = [] ∧ (readRanges tag "range").2 = [] ∧ (readRanges tag "highlight").2 = [] ∧
        (readFlag tag "showLineNumbers").2 = [] ∧ (readFlag tag "allowCopy").2 = [] ∧
        (readButtons tag).2 = [] ∧
        rangeFaults (readRanges tag "range").1 (readRanges tag "highlight").1 source = [] := by
  unfold faultsIn valueFaults
  simp only [List.append_eq_nil_iff, and_assoc]

theorem ofTag_eq_ok_iff {directive : Directive} :
    ofTag tag directory sources = .ok directive <->
      exists file source, readFile tag = .ok file ∧
        sources.get (resolve directory file) = .ok source ∧ faultsIn tag source = [] ∧
        directive = make tag file source := by
  constructor
  · intro h
    cases hfile : readFile tag with
    | error fault =>
        rw [ofTag_unnamed hfile] at h
        cases h
    | ok file =>
        cases hget : sources.get (resolve directory file) with
        | error reason =>
            rw [ofTag_unreadable hfile hget] at h
            cases h
        | ok source =>
            rw [ofTag_readable hfile hget] at h
            split at h
            · rename_i hnone
              exact ⟨file, source, rfl, hget, hnone, (Except.ok.inj h).symm⟩
            · cases h
  · rintro ⟨file, source, hfile, hget, hnone, rfl⟩
    rw [ofTag_readable hfile hget, if_pos hnone]

theorem ne_nil_of_ofTag {faults : List DirectiveFault}
    (h : ofTag tag directory sources = .error faults) : faults ≠ [] := by
  cases hfile : readFile tag with
  | error fault =>
      rw [ofTag_unnamed hfile] at h
      rw [← Except.error.inj h]
      simp
  | ok file =>
      cases hget : sources.get (resolve directory file) with
      | error reason =>
          rw [ofTag_unreadable hfile hget] at h
          rw [← Except.error.inj h]
          simp
      | ok source =>
          rw [ofTag_readable hfile hget] at h
          split at h
          · cases h
          · rename_i hsome
            rw [← Except.error.inj h]
            exact hsome

theorem GivesRanges.eq_nil_iff {ranges : RangeList} (h : GivesRanges tag name ranges) :
    ranges = [] <-> tag.attribute? name = none := by
  rcases h with ⟨hnone, hempty⟩ | ⟨text, htext, hparse⟩
  · exact ⟨fun _ => hnone, fun _ => hempty⟩
  · constructor
    · intro hempty
      exact absurd hempty (RangeList.ne_nil_of_parse hparse)
    · intro hnone
      rw [hnone] at htext
      cases htext

theorem GivesRanges.ascending {ranges : RangeList} (h : GivesRanges tag name ranges) :
    RangeList.Ascending ranges := by
  rcases h with ⟨_, rfl⟩ | ⟨text, _, hparse⟩
  · exact RangeList.ascending_nil
  · exact (RangeList.parse_eq_ok_iff.mp hparse).right

theorem coveringRanges_nil (source : SourceText) :
    coveringRanges [] source = [⟨1, max source.lineCount 1⟩] :=
  rfl

theorem coveringRanges_of_ne_nil {ranges : RangeList} (h : ranges ≠ []) (source : SourceText) :
    coveringRanges ranges source = ranges := by
  unfold coveringRanges
  rw [if_neg (by simpa using h)]

/-- A range is covered by the whole file if there is no attribute with ranges, and else by one of
the ranges. -/
theorem GivesRanges.covers_iff {ranges : RangeList} (h : GivesRanges tag name ranges)
    (source : SourceText) (inner : LineRange) :
    (coveringRanges ranges source).covers inner = true <->
      (tag.attribute? name = none ∧ 1 ≤ inner.start ∧ inner.stop ≤ max source.lineCount 1) ∨
        exists outer, outer ∈ ranges ∧ outer.start ≤ inner.start ∧ inner.stop ≤ outer.stop := by
  rw [RangeList.covers_iff]
  by_cases hempty : ranges = []
  · rw [hempty, coveringRanges_nil]
    simp [h.eq_nil_iff.mp hempty]
  · rw [coveringRanges_of_ne_nil hempty]
    have hsome : tag.attribute? name ≠ none := fun hnone => hempty (h.eq_nil_iff.mpr hnone)
    simp [hsome]

theorem accepted_of_ofTag {directive : Directive}
    (h : ofTag tag directory sources = .ok directive) :
    Accepted tag directory sources directive := by
  rcases ofTag_eq_ok_iff.mp h with ⟨file, source, hfile, hget, hnone, rfl⟩
  rcases faultsIn_eq_nil_iff.mp hnone with
    ⟨hnames, hranges, hhighlight, hnumbers, hcopy, hbuttons, hinside⟩
  rcases rangeFaults_eq_nil_iff.mp hinside with ⟨hbounds, hcovered⟩
  have hdeclared := readRanges_eq_iff.mp (Prod.ext rfl hranges)
  constructor
  case known => exact (nameFaults_eq_nil_iff.mp hnames).left
  case once => exact (nameFaults_eq_nil_iff.mp hnames).right
  case file => exact readFile_eq_ok_iff.mp hfile
  case source => exact Sources.get_eq_ok_iff.mp hget
  case ranges => exact hdeclared
  case inside => exact hbounds
  case highlight => exact readRanges_eq_iff.mp (Prod.ext rfl hhighlight)
  case covered =>
    intro inner hinner
    exact (hdeclared.covers_iff source inner).mp (hcovered inner hinner)
  case lineNumbers => exact readFlag_eq_iff.mp (Prod.ext rfl hnumbers)
  case copy => exact readFlag_eq_iff.mp (Prod.ext rfl hcopy)
  case buttons => exact readButtons_eq_iff.mp (Prod.ext rfl hbuttons)

theorem ofTag_of_accepted {directive : Directive} (h : Accepted tag directory sources directive) :
    ofTag tag directory sources = .ok directive := by
  have hranges := readRanges_eq_iff.mpr h.ranges
  have hhighlight := readRanges_eq_iff.mpr h.highlight
  have hnumbers := readFlag_eq_iff.mpr h.lineNumbers
  have hcopy := readFlag_eq_iff.mpr h.copy
  have hbuttons := readButtons_eq_iff.mpr h.buttons
  rw [ofTag_eq_ok_iff]
  refine ⟨directive.file, directive.source, readFile_eq_ok_iff.mpr h.file,
    Sources.get_eq_ok_iff.mpr h.source, ?_, ?_⟩
  · rw [faultsIn_eq_nil_iff, hranges, hhighlight, hnumbers, hcopy, hbuttons, nameFaults_eq_nil_iff,
      rangeFaults_eq_nil_iff]
    refine ⟨⟨h.known, h.once⟩, rfl, rfl, rfl, rfl, rfl, h.inside, fun inner hinner => ?_⟩
    exact (h.ranges.covers_iff directive.source inner).mpr (h.covered inner hinner)
  · unfold make
    rw [hranges, hhighlight, hnumbers, hcopy, hbuttons]

/-- A tag is taken for exactly the directives of which it says all and nothing else, and it is
never refused without a fault. -/
theorem ofTag_accepts (tag : Tag) (directory : FilePath) (sources : Sources) :
    (forall directive, ofTag tag directory sources = .ok directive <->
      Accepted tag directory sources directive) ∧
      forall faults, ofTag tag directory sources = .error faults ->
        faults ≠ [] ∧ forall directive, ¬ Accepted tag directory sources directive := by
  constructor
  · intro directive
    exact ⟨accepted_of_ofTag, ofTag_of_accepted⟩
  · intro faults herror
    refine ⟨ne_nil_of_ofTag herror, fun directive haccepted => ?_⟩
    rw [ofTag_of_accepted haccepted] at herror
    cases herror

def endingTag : Tag where
  name := elementName
  attributes :=
    [⟨"file", .string " a.ts"⟩, ⟨"range", .string "2-3"⟩, ⟨"highlight", .string "3"⟩,
      ⟨"allowCopy", .expression "false"⟩, ⟨"showLineNumbers", .bare⟩,
      ⟨"buttons", .string "solution, problem,solution"⟩]
  selfClosing := true

def endingSource : SourceText :=
  ⟨⟨"a.ts"⟩, "one\ntwo\nthree".toList, .absent ⟨"a.ts"⟩⟩

theorem ofTag_accepts_ending :
    Accepted endingTag ⟨""⟩ ⟨[(⟨"a.ts"⟩, .text endingSource)]⟩
        ⟨"a.ts", [⟨2, 3⟩], [⟨3, 3⟩], true, false, [.solution, .problem], endingSource⟩ ∧
      ofTag endingTag ⟨""⟩ .empty = .error [.unreadable "a.ts" "file was not loaded"] ∧
      forall directive, ¬ Accepted endingTag ⟨""⟩ .empty directive := by
  have hmissing : ofTag endingTag ⟨""⟩ .empty =
      .error [.unreadable "a.ts" "file was not loaded"] := by
    decide +kernel
  refine ⟨?_, hmissing, ((ofTag_accepts endingTag ⟨""⟩ .empty).right _ hmissing).right⟩
  exact ((ofTag_accepts endingTag ⟨""⟩ ⟨[(⟨"a.ts"⟩, .text endingSource)]⟩).left _).mp
    (by decide +kernel)

end Directive
end LessonPress

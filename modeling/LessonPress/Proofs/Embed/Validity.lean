import LessonPress.Proofs.Embed.Replacement
import LessonPress.Proofs.Embed.Tracking

/-!
# Valid directives

## What decides whether a directive is valid

Of the files that have been loaded, a directive sees the path and the text that are there
under its own path, or the reason why there is no text.  The path is the one by which the
document asks for the file first, and there always is one.
-/

namespace LessonPress

def FileSystem.textAt (fs : FileSystem) (path : FilePath) : Except String (List Char) :=
  match fs.read path with
  | .error cause => .error cause.message
  | .ok bytes =>
      match String.fromUTF8? bytes with
      | none => .error "file is not valid UTF-8"
      | some content => .ok (Text.normalizeNewlines content.toList)

/-- Two spellings of a path that both have a text have the same one. -/
theorem FileSystem.textAt_of_same {fs : FileSystem} {path other : FilePath}
    (h : path.same other = true) {text found : List Char} (hpath : fs.textAt path = .ok text)
    (hother : fs.textAt other = .ok found) : text = found := by
  unfold textAt at hpath hother
  cases hread : fs.read path with
  | error cause =>
      rw [hread] at hpath
      cases hpath
  | ok bytes =>
      cases hreadOther : fs.read other with
      | error cause =>
          rw [hreadOther] at hother
          cases hother
      | ok others =>
          rw [hread, read_of_same h hread hreadOther] at hpath
          rw [hreadOther] at hother
          exact Except.ok.inj (hpath.symm.trans hother)

theorem TrackedFile.capture_eq_error {fs : FileSystem} {path : FilePath} {cause : IoError}
    (h : fs.read path = .error cause) : capture fs path = .error cause := by
  unfold FileSystem.read at h
  unfold capture Fingerprint.read FileSystem.stat FileSystem.read
  cases hfound : fs.lookUp path with
  | error reason =>
      rw [hfound] at h
      cases h
      rfl
  | ok found =>
      rcases found with ⟨location, entry⟩
      rw [hfound] at h
      cases entry with
      | file data => cases h
      | directory =>
          cases h
          rfl

namespace LoadedFile

variable (fs : FileSystem) (path : FilePath)

theorem textAt_eq :
    fs.textAt path =
      match read fs path with
      | .text source => .ok source.text
      | .failed reason _ => .error reason := by
  unfold read FileSystem.textAt
  cases hcapture : TrackedFile.capture fs path with
  | error cause =>
      cases hread : fs.read path with
      | error other =>
          rw [TrackedFile.capture_eq_error hread] at hcapture
          rw [Except.error.inj hcapture]
      | ok bytes =>
          have hok := TrackedFile.capture_isOk fs path
          rw [hread, hcapture] at hok
          cases hok
  | ok captured =>
      rcases captured with ⟨tracked, bytes⟩
      rcases TrackedFile.capture_eq_ok hcapture with ⟨_, _, hbytes, _⟩
      rw [hbytes]
      dsimp only
      cases String.fromUTF8? bytes <;> rfl

variable {fs path}

theorem path_of_read {source : SourceText} (h : read fs path = .text source) :
    source.path = path := by
  unfold read at h
  split at h
  · cases h
  · split at h
    · cases h
    · cases h
      rfl

theorem textAt_of_read {source : SourceText} (h : read fs path = .text source) :
    fs.textAt path = .ok source.text := by
  rw [textAt_eq, h]

end LoadedFile

namespace Sources

def view (sources : Sources) (path : FilePath) : Except String (FilePath × List Char) :=
  (sources.get path).map fun source => (source.path, source.text)

variable {sources : Sources} {path : FilePath}

theorem get_of_view_error {reason : String} (h : sources.view path = .error reason) :
    sources.get path = .error reason := by
  unfold view at h
  cases hget : sources.get path with
  | error cause =>
      rw [hget] at h
      cases h
      rfl
  | ok source =>
      rw [hget] at h
      cases h

theorem get_of_view_ok {first : FilePath} {text : List Char}
    (h : sources.view path = .ok (first, text)) :
    exists tracked, sources.get path = .ok ⟨first, text, tracked⟩ := by
  unfold view at h
  cases hget : sources.get path with
  | error cause =>
      rw [hget] at h
      cases h
  | ok source =>
      rw [hget] at h
      cases h
      exact ⟨source.tracked, rfl⟩

theorem view_preload (fs : FileSystem) {paths : List FilePath} (h : Distinct paths)
    {first : FilePath}
    (hfirst : (paths.find? fun other => other.same path) = some first) :
    (preload fs paths).view path = (fs.textAt first).map fun text => (first, text) := by
  unfold view get
  rw [find?_preload fs h, hfirst, Option.map_some, LoadedFile.textAt_eq]
  cases hread : LoadedFile.read fs first with
  | text source =>
      dsimp only
      rw [← LoadedFile.path_of_read hread]
      rfl
  | failed reason tracked => rfl

end Sources

/-!
# What a document asks for
-/

namespace Node

mutual

theorem mem_walk_of_outermost {node : Node} {site : Site} (h : site ∈ node.outermost) :
    .element site.tag site.children site.position ∈ node.walk ∧
      site.tag.name = Directive.elementName := by
  cases node with
  | element tag children position =>
      rw [outermost] at h
      rw [walk]
      by_cases hname : tag.name = Directive.elementName
      · rw [if_pos hname, List.mem_singleton] at h
        rw [h]
        exact ⟨List.mem_cons_self, hname⟩
      · rw [if_neg hname] at h
        obtain ⟨hmem, hsite⟩ := mem_walkAll_of_outermostAll h
        exact ⟨List.mem_cons_of_mem _ hmem, hsite⟩
  | _ =>
      rw [outermost] at h
      · cases h
      · nofun

theorem mem_walkAll_of_outermostAll {nodes : List Node} {site : Site}
    (h : site ∈ outermostAll nodes) :
    .element site.tag site.children site.position ∈ walkAll nodes ∧
      site.tag.name = Directive.elementName := by
  cases nodes with
  | nil => cases h
  | cons node rest =>
      rw [outermostAll, List.mem_append] at h
      rw [walkAll, List.mem_append]
      cases h with
      | inl hnode =>
          obtain ⟨hmem, hname⟩ := mem_walk_of_outermost hnode
          exact ⟨Or.inl hmem, hname⟩
      | inr hrest =>
          obtain ⟨hmem, hname⟩ := mem_walkAll_of_outermostAll hrest
          exact ⟨Or.inr hmem, hname⟩

end

end Node

namespace Directive

/-- The path of the first directive, at any depth, that asks for the same file. -/
def firstSpelling (document : Document) (directory path : FilePath) : Option FilePath :=
  ((Node.walkAll document.children).filterMap (requestedPath directory)).find? fun other =>
    other.same path

theorem view_requested (fs : FileSystem) {document : Document} {directory path first : FilePath}
    (h : firstSpelling document directory path = some first) :
    (Sources.preload fs (requestedPaths document directory)).view path =
      (fs.textAt first).map fun text => (first, text) := by
  refine Sources.view_preload fs (distinct_requestedPaths document directory) ?_
  unfold requestedPaths
  rw [find?_dropRepeated]
  exact h

theorem requestedPath_site {directory : FilePath} (site : Site) {file : String}
    (hname : site.tag.name = elementName) (hfile : readFile site.tag = .ok file) :
    requestedPath directory (.element site.tag site.children site.position) =
      some (resolve directory file) := by
  unfold requestedPath
  dsimp only
  rw [if_pos hname, hfile]

theorem firstSpelling_isSome {document : Document} (directory : FilePath) {site : Site}
    {file : String} (hsite : site ∈ Node.outermostAll document.children)
    (hfile : readFile site.tag = .ok file) :
    exists first, firstSpelling document directory (resolve directory file) = some first ∧
      first.same (resolve directory file) = true := by
  obtain ⟨hmem, hname⟩ := Node.mem_walkAll_of_outermostAll hsite
  have hfound : (firstSpelling document directory (resolve directory file)).isSome = true := by
    unfold firstSpelling
    rw [List.find?_isSome]
    refine ⟨resolve directory file, ?_, FilePath.same_refl _⟩
    rw [List.mem_filterMap]
    exact ⟨_, hmem, requestedPath_site site hname hfile⟩
  obtain ⟨first, hfirst⟩ := Option.isSome_iff_exists.mp hfound
  have hsame := List.find?_some hfirst
  exact ⟨first, hfirst, hsame⟩

/-!
# Faults
-/

section Faults

variable (tag : Tag)

def valueFaults : List DirectiveFault :=
  (readRanges tag "range").2 ++ (readRanges tag "highlight").2 ++
    (readFlag tag "showLineNumbers").2 ++ (readFlag tag "allowCopy").2 ++ (readButtons tag).2

def faultsIn (source : SourceText) : List DirectiveFault :=
  nameFaults tag ++ valueFaults tag ++
    rangeFaults (readRanges tag "range").1 (readRanges tag "highlight").1 source

def make (file : String) (source : SourceText) : Directive :=
  { file := file
    ranges := (readRanges tag "range").1
    highlight := (readRanges tag "highlight").1
    showLineNumbers := (readFlag tag "showLineNumbers").1
    allowCopy := (readFlag tag "allowCopy").1
    buttons := (readButtons tag).1
    source := source }

end Faults

variable {tag : Tag} {directory : FilePath} {sources : Sources} {file : String}

theorem ofTag_unnamed {fault : DirectiveFault} (h : readFile tag = .error fault) :
    ofTag tag directory sources = .error (nameFaults tag ++ fault :: valueFaults tag) := by
  unfold ofTag readSource
  rw [h]
  rfl

theorem ofTag_unreadable (hfile : readFile tag = .ok file) {reason : String}
    (h : sources.get (resolve directory file) = .error reason) :
    ofTag tag directory sources =
      .error (nameFaults tag ++ .unreadable file reason :: valueFaults tag) := by
  unfold ofTag readSource
  rw [hfile]
  dsimp only
  rw [h]
  rfl

theorem ofTag_readable (hfile : readFile tag = .ok file) {source : SourceText}
    (h : sources.get (resolve directory file) = .ok source) :
    ofTag tag directory sources =
      if faultsIn tag source = [] then .ok (make tag file source)
      else .error (faultsIn tag source) := by
  unfold ofTag readSource
  rw [hfile]
  dsimp only
  rw [h]
  dsimp only
  cases hfaults : faultsIn tag source with
  | nil =>
      unfold faultsIn valueFaults at hfaults
      rw [hfaults]
      rfl
  | cons fault rest =>
      unfold faultsIn valueFaults at hfaults
      rw [hfaults]
      rfl

theorem faultsIn_congr (tag : Tag) {source other : SourceText} (h : source.text = other.text) :
    faultsIn tag source = faultsIn tag other := by
  have hcount : source.lineCount = other.lineCount := by
    unfold SourceText.lineCount SourceText.lines
    rw [h]
  unfold faultsIn rangeFaults coveringRanges
  rw [hcount]

/-!
# Faults of the file and of attributes
-/

section FileAccess

variable {name : String} {fault : DirectiveFault}

theorem stringAttribute_eq_error (h : stringAttribute tag name = .error fault) :
    fault = .notAString name := by
  unfold stringAttribute at h
  split at h <;> cases h
  rfl

theorem isFileAccess_readRanges (h : fault ∈ (readRanges tag name).2) :
    fault.isFileAccess = false := by
  unfold readRanges at h
  cases htext : stringAttribute tag name with
  | error cause =>
      rw [htext, stringAttribute_eq_error htext] at h
      rw [List.mem_singleton.mp h]
      rfl
  | ok text =>
      rw [htext] at h
      cases text with
      | none => cases h
      | some text =>
          dsimp only at h
          split at h
          · obtain ⟨cause, _, rfl⟩ := List.mem_map.mp h
            rfl
          · cases h

theorem isFileAccess_readFlag (h : fault ∈ (readFlag tag name).2) :
    fault.isFileAccess = false := by
  have hword : forall word : String, fault ∈ (if word = "true" then (true, [])
      else if word = "false" then (false, [])
      else (true, [DirectiveFault.notABoolean name word])).2 -> fault.isFileAccess = false := by
    intro word hmem
    split at hmem
    · cases hmem
    · split at hmem
      · cases hmem
      · rw [List.mem_singleton.mp hmem]
        rfl
  unfold readFlag at h
  dsimp only at h
  split at h
  · cases h
  · cases h
  · exact hword _ h
  · exact hword _ h

theorem isFileAccess_readButtonItems {known : List Button} {items : List String}
    (h : fault ∈ (readButtonItems known items).2) : fault.isFileAccess = false := by
  induction items generalizing known with
  | nil => cases h
  | cons item rest ih =>
      rw [readButtonItems] at h
      split at h
      · exact ih h
      · cases List.mem_cons.mp h with
        | inl hitem =>
            rw [hitem]
            rfl
        | inr hrest => exact ih hrest

theorem isFileAccess_readButtons (h : fault ∈ (readButtons tag).2) :
    fault.isFileAccess = false := by
  unfold readButtons at h
  cases htext : stringAttribute tag "buttons" with
  | error cause =>
      rw [htext, stringAttribute_eq_error htext] at h
      rw [List.mem_singleton.mp h]
      rfl
  | ok text =>
      rw [htext] at h
      cases text with
      | none => cases h
      | some text => exact isFileAccess_readButtonItems h

theorem isFileAccess_valueFaults (h : fault ∈ valueFaults tag) : fault.isFileAccess = false := by
  unfold valueFaults at h
  simp only [List.mem_append] at h
  rcases h with (((hrange | hhighlight) | hnumbers) | hcopy) | hbuttons
  · exact isFileAccess_readRanges hrange
  · exact isFileAccess_readRanges hhighlight
  · exact isFileAccess_readFlag hnumbers
  · exact isFileAccess_readFlag hcopy
  · exact isFileAccess_readButtons hbuttons

theorem isFileAccess_rangeFaults {ranges highlight : RangeList} {source : SourceText}
    (h : fault ∈ rangeFaults ranges highlight source) : fault.isFileAccess = false := by
  unfold rangeFaults at h
  cases List.mem_append.mp h with
  | inl hbounds =>
      obtain ⟨cause, _, rfl⟩ := List.mem_map.mp hbounds
      rfl
  | inr huncovered =>
      obtain ⟨range, _, rfl⟩ := List.mem_map.mp huncovered
      rfl

theorem isFileAccess_nameFaults (h : fault ∈ nameFaults tag) : fault.isFileAccess = false := by
  unfold nameFaults at h
  cases List.mem_append.mp h with
  | inl hunknown =>
      obtain ⟨entry, _, rfl⟩ := List.mem_map.mp hunknown
      rfl
  | inr hrepeated =>
      obtain ⟨name, _, rfl⟩ := List.mem_map.mp hrepeated
      rfl

theorem isFileAccess_readFile (h : readFile tag = .error fault) : fault.isFileAccess = false := by
  unfold readFile at h
  cases htext : stringAttribute tag "file" with
  | error cause =>
      rw [htext, stringAttribute_eq_error htext] at h
      rw [← Except.error.inj h]
      rfl
  | ok text =>
      rw [htext] at h
      cases text with
      | none =>
          rw [← Except.error.inj h]
          rfl
      | some text =>
          dsimp only at h
          split at h
          · rw [← Except.error.inj h]
            rfl
          · cases h

theorem isFileAccess_faultsIn {source : SourceText} (h : fault ∈ faultsIn tag source) :
    fault.isFileAccess = false := by
  unfold faultsIn at h
  simp only [List.mem_append] at h
  rcases h with (hname | hvalue) | hrange
  · exact isFileAccess_nameFaults hname
  · exact isFileAccess_valueFaults hvalue
  · exact isFileAccess_rangeFaults hrange

theorem isFileAccess_or_get {faults : List DirectiveFault}
    (h : ofTag tag directory sources = .error faults) (hfault : fault ∈ faults) :
    fault.isFileAccess = false ∨ exists file reason, readFile tag = .ok file ∧
      sources.get (resolve directory file) = .error reason ∧ fault = .unreadable file reason := by
  cases hfile : readFile tag with
  | error missing =>
      rw [ofTag_unnamed hfile] at h
      rw [← Except.error.inj h, List.mem_append, List.mem_cons] at hfault
      rcases hfault with hname | rfl | hvalue
      · exact Or.inl (isFileAccess_nameFaults hname)
      · exact Or.inl (isFileAccess_readFile hfile)
      · exact Or.inl (isFileAccess_valueFaults hvalue)
  | ok file =>
      cases hget : sources.get (resolve directory file) with
      | error reason =>
          rw [ofTag_unreadable hfile hget] at h
          rw [← Except.error.inj h, List.mem_append, List.mem_cons] at hfault
          rcases hfault with hname | hunreadable | hvalue
          · exact Or.inl (isFileAccess_nameFaults hname)
          · exact Or.inr ⟨file, reason, rfl, hget, hunreadable⟩
          · exact Or.inl (isFileAccess_valueFaults hvalue)
      | ok source =>
          rw [ofTag_readable hfile hget] at h
          split at h
          · cases h
          · rw [← Except.error.inj h] at hfault
            exact Or.inl (isFileAccess_faultsIn hfault)

end FileAccess

end Directive
end LessonPress

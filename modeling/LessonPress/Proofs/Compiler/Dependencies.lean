import LessonPress.Compiler.Compile
import LessonPress.Proofs.Compiler.Recompile
import LessonPress.Proofs.Embed.Messages
import LessonPress.Proofs.Embed.Validity

/-!
# Dependencies of a document

## What a compile looks at

A compile reads the document and the files that it gives as dependencies, and nothing else.
All that its directives ask for has been loaded, so two file systems that agree on these
files lead to the same result.
-/

namespace LessonPress

open Node (outermostAll diagnosticsIn)

/-!
# Files and directives
-/

theorem FileSystem.textAt_congr {fs other : FileSystem} {path : FilePath}
    (h : other.read path = fs.read path) : other.textAt path = fs.textAt path := by
  unfold textAt
  rw [h]

theorem FileSystem.endsApart_textAt {fs : FileSystem} {path : FilePath} {reason : String}
    (h : fs.textAt path = .error reason) : EndsApart reason := by
  unfold textAt at h
  cases hread : fs.read path with
  | error cause =>
      rw [hread] at h
      rw [← Except.error.inj h]
      exact cause.endsApart_message
  | ok bytes =>
      rw [hread] at h
      dsimp only at h
      split at h
      · rw [← Except.error.inj h]
        exact ⟨'8', rfl, by decide⟩
      · cases h

namespace Directive

theorem firstSpelling_mem {document : Document} {directory path first : FilePath}
    (h : firstSpelling document directory path = some first) :
    first ∈ requestedPaths document directory := by
  have hfind := find?_dropRepeated [] ((Node.walkAll document.children).filterMap
    (requestedPath directory)) path
  rw [List.nil_append] at hfind
  exact List.mem_of_find?_eq_some (hfind.trans h)

end Directive

namespace Site

def Sees (directory : FilePath) (sources others : Sources) (site : Site) : Prop :=
  forall file, Directive.readFile site.tag = .ok file ->
    sources.view (Directive.resolve directory file) =
      others.view (Directive.resolve directory file)

end Site

namespace Expansion

variable {directory : FilePath} {sources others : Sources} {lines : List (List Char)}

theorem expandDirective_congr {site : Site} (h : site.Sees directory sources others)
    (expansion : Expansion) :
    expandDirective ⟨directory, lines, sources⟩ site.tag site.position expansion =
      expandDirective ⟨directory, lines, others⟩ site.tag site.position expansion := by
  unfold expandDirective
  dsimp only
  cases hfile : Directive.readFile site.tag with
  | error fault =>
      rw [Directive.ofTag_unnamed hfile, Directive.ofTag_unnamed hfile]
      rfl
  | ok file =>
      have hview := h file hfile
      cases hfound : others.view (Directive.resolve directory file) with
      | error reason =>
          rw [hfound] at hview
          rw [Directive.ofTag_unreadable hfile (Sources.get_of_view_error hview),
            Directive.ofTag_unreadable hfile (Sources.get_of_view_error hfound)]
          rfl
      | ok found =>
          rcases found with ⟨path, text⟩
          rw [hfound] at hview
          obtain ⟨tracked, hget⟩ := Sources.get_of_view_ok hview
          obtain ⟨stored, hothers⟩ := Sources.get_of_view_ok hfound
          have hfaults : Directive.faultsIn site.tag ⟨path, text, stored⟩ =
              Directive.faultsIn site.tag ⟨path, text, tracked⟩ := Directive.faultsIn_congr _ rfl
          rw [Directive.ofTag_readable hfile hget, Directive.ofTag_readable hfile hothers, hfaults]
          by_cases hnone : Directive.faultsIn site.tag ⟨path, text, tracked⟩ = []
          · rw [if_pos hnone, if_pos hnone]
            rfl
          · rw [if_neg hnone, if_neg hnone]
            rfl

mutual

theorem expandNode_congr {node : Node}
    (h : forall site, site ∈ node.outermost -> site.Sees directory sources others)
    (expansion : Expansion) :
    expandNode ⟨directory, lines, sources⟩ node expansion =
      expandNode ⟨directory, lines, others⟩ node expansion := by
  cases node with
  | element tag children position =>
      rw [expandNode, expandNode]
      by_cases hname : tag.name = Directive.elementName
      · have hsite := h ⟨tag, children, position⟩ (by simp [Node.outermost, hname])
        rw [if_pos hname, if_pos hname]
        exact expandDirective_congr hsite expansion
      · have hchildren : forall site, site ∈ outermostAll children ->
            site.Sees directory sources others := by
          intro site hsite
          exact h site (by simpa [Node.outermost, hname] using hsite)
        rw [if_neg hname, if_neg hname, expandNodes_congr hchildren expansion]
  | _ =>
      rw [expandNode, expandNode]
      · nofun
      · nofun

theorem expandNodes_congr {nodes : List Node}
    (h : forall site, site ∈ outermostAll nodes -> site.Sees directory sources others)
    (expansion : Expansion) :
    expandNodes ⟨directory, lines, sources⟩ nodes expansion =
      expandNodes ⟨directory, lines, others⟩ nodes expansion := by
  cases nodes with
  | nil => rfl
  | cons node rest =>
      have hnode := fun site hsite => h site (List.mem_append_left _ hsite)
      have hrest := fun site hsite => h site (List.mem_append_right _ hsite)
      rw [expandNodes, expandNodes, expandNode_congr hnode expansion]
      cases expandNode ⟨directory, lines, others⟩ node expansion with
      | mk first next =>
          dsimp only
          rw [expandNodes_congr hrest next]

end

end Expansion

/-!
# Loaded files
-/

namespace Sources

variable {fs other : FileSystem} {paths : List FilePath}

theorem mem_paths_tracked (fs : FileSystem) (h : Distinct paths) {path : FilePath}
    (hpath : path ∈ paths) : exists file, file ∈ (preload fs paths).tracked ∧ file.path = path := by
  refine ⟨TrackedFile.captureOrAbsent fs path, ?_, TrackedFile.path_captureOrAbsent fs path⟩
  rw [(perm_tracked fs h).mem_iff]
  exact List.mem_map_of_mem hpath

theorem tracked_paths (fs : FileSystem) (h : Distinct paths) :
    (preload fs paths).tracked.map TrackedFile.path =
      paths.mergeSort fun path other => path.le other := by
  have hpath : (TrackedFile.path ∘ fun file : FilePath × LoadedFile => file.2.tracked) ∘
      (fun path => (path, LoadedFile.read fs path)) = id := by
    funext path
    change (LoadedFile.read fs path).tracked.path = path
    rw [LoadedFile.tracked_read]
    exact TrackedFile.path_captureOrAbsent fs path
  have hpaths : ((preload fs paths).files.map fun file => file.2.tracked).map TrackedFile.path =
      paths := by
    rw [files_preload h, List.map_map, List.map_map, hpath, List.map_id]
  have hsort : (preload fs paths).tracked.map TrackedFile.path =
      (((preload fs paths).files.map fun file => file.2.tracked).map TrackedFile.path).mergeSort
        fun path other => path.le other := List.map_mergeSort fun _ _ _ _ => rfl
  rw [hsort, hpaths]

end Sources

/-!
# Messages of directives
-/

/-- No reason for a missing text ends like that for a file that was not loaded. -/
def EmbedContext.Spoken (context : EmbedContext) (site : Site) : Prop :=
  forall file reason, Directive.readFile site.tag = .ok file ->
    context.sources.get (Directive.resolve context.directory file) = .error reason ->
    EndsApart reason

namespace Replaces

variable {context : EmbedContext} {site : Site} {nodes : List Node}

theorem endsApart_fault (hspoken : context.Spoken site) {faults : List DirectiveFault}
    (htag : Directive.ofTag site.tag context.directory context.sources = .error faults)
    {fault : DirectiveFault} (hfault : fault ∈ faults) : EndsApart fault.message := by
  rcases Directive.isFileAccess_or_get htag hfault with
    hattribute | ⟨file, reason, hfile, hget, rfl⟩
  · exact fault.endsApart_message hattribute
  · exact .append (hspoken file reason hfile hget) ("unable to read \"" ++ file ++ "\": ")

theorem endsApart (h : Replaces context site nodes) (hspoken : context.Spoken site)
    {content : Diagnostic} (hcontent : content ∈ diagnosticsIn nodes) {message : String}
    (hmessage : message ∈ content.messages) : EndsApart message := by
  cases h with
  | refused htag =>
      rw [Node.diagnosticsIn_diagnostic, List.mem_singleton] at hcontent
      rw [hcontent] at hmessage
      obtain ⟨fault, hfault, rfl⟩ := List.mem_map.mp hmessage
      exact endsApart_fault hspoken htag hfault
  | shown htag =>
      rw [Expansion.diagnosticsIn_codes] at hcontent
      cases hcontent
  | drifted htag =>
      rw [Node.diagnosticsIn_cons, Expansion.diagnosticsIn_codes, List.append_nil,
        Expansion.driftDiagnostic, Node.diagnosticsIn_diagnostic, List.mem_singleton] at hcontent
      rw [hcontent, List.mem_singleton] at hmessage
      rw [hmessage]
      exact Directive.endsApart_driftMessage _

end Replaces

namespace Replacement

variable {context : EmbedContext} {made : Replacement} {message : String}

theorem endsApart_messages (h : Replaces context made.site made.nodes)
    (hspoken : context.Spoken made.site) {severity : Severity}
    (hmessage : message ∈ made.messages severity) : EndsApart message := by
  obtain ⟨content, hcontent, hmem⟩ := List.mem_flatMap.mp hmessage
  obtain ⟨text, htext, rfl⟩ := List.mem_map.mp hmem
  have hends := h.endsApart hspoken (List.mem_filter.mp hcontent).left htext
  exact hends.append _

theorem endsApart_markers (h : Replaces context made.site made.nodes)
    (hspoken : context.Spoken made.site) {marker : InvalidEmbed} (hmarker : marker ∈ made.markers)
    (hmessage : message ∈ marker.messages) : EndsApart message := by
  obtain ⟨content, hcontent, rfl⟩ := List.mem_map.mp hmarker
  exact h.endsApart hspoken (List.mem_filter.mp hcontent).left hmessage

end Replacement

/-!
# Documents
-/

def CompiledDocument.messages (value : CompiledDocument) : List String :=
  value.errors ++ value.warnings ++ value.embedded.invalid.flatMap InvalidEmbed.messages

namespace Compile

/-- What a compile gives, without the states of the files that it has looked at. -/
def report (result : Except Error (Computed CompiledDocument) × DriftLedger) :
    Except Error (CompiledDocument × List FilePath) × DriftLedger :=
  (result.1.map fun computed =>
    (computed.value, computed.dependencies.map TrackedFile.path), result.2)

/-- A compile has loaded every file that a directive asks for, so it never says that one was
not loaded, and it depends on the document and on the files that it reports alone. -/
structure Complete (fs : FileSystem) (ledger : DriftLedger) (path : FilePath) : Prop where
  loaded : forall source document, readDocument fs path = .ok (source, document) ->
    forall site, site ∈ outermostAll document.children ->
    forall file, Directive.readFile site.tag = .ok file ->
    ((Sources.preload fs (Directive.requestedPaths document (directoryOf path))).find?
      (Directive.resolve (directoryOf path) file)).isSome = true
  unsaid : forall computed, (compileDocument fs ledger path).1 = .ok computed ->
    (forall message, message ∈ computed.value.messages ->
      ¬ "file was not loaded".toList <:+ message.toList) ∧
    exists document : Document, computed.value.code = document.toJson.toText ∧
      forall content, content ∈ diagnosticsIn document.children ->
      forall message, message ∈ content.messages ->
      ¬ "file was not loaded".toList <:+ message.toList
  determined : forall other : FileSystem, other.read path = fs.read path ->
    (forall computed, (compileDocument fs ledger path).1 = .ok computed ->
      forall file, file ∈ computed.dependencies -> other.read file.path = fs.read file.path) ->
    report (compileDocument other ledger path) = report (compileDocument fs ledger path)

section Documents

variable {fs other : FileSystem} {ledger : DriftLedger} {directory : FilePath} {source : String}
  {document : Document}

theorem view_of_textAt (h : forall path, path ∈ Directive.requestedPaths document directory ->
    other.textAt path = fs.textAt path) :
    forall site, site ∈ outermostAll document.children ->
      site.Sees directory
        (Sources.preload other (Directive.requestedPaths document directory))
        (Sources.preload fs (Directive.requestedPaths document directory)) := by
  intro site hsite file hfile
  obtain ⟨first, hfirst, _⟩ := Directive.firstSpelling_isSome directory hsite hfile
  rw [Directive.view_requested other hfirst, Directive.view_requested fs hfirst,
    h first (Directive.firstSpelling_mem hfirst)]

/-- An expansion depends on the lines of its document and on the texts that it asks for. -/
theorem expand_of_textAt (ledger : DriftLedger) {respelled : String}
    (hlines : Text.linesOf respelled = Text.linesOf source)
    (h : forall path, path ∈ Directive.requestedPaths document directory ->
      other.textAt path = fs.textAt path) :
    (expand other ledger directory respelled document).1.value =
        (expand fs ledger directory source document).1.value ∧
      (expand other ledger directory respelled document).2 =
        (expand fs ledger directory source document).2 := by
  have hexpansion : Expansion.expandNodes
      ⟨directory, Text.linesOf source,
        Sources.preload other (Directive.requestedPaths document directory)⟩
      document.children (.start ledger) =
        Expansion.expandNodes
          ⟨directory, Text.linesOf source,
            Sources.preload fs (Directive.requestedPaths document directory)⟩
          document.children (.start ledger) := Expansion.expandNodes_congr (view_of_textAt h) _
  unfold expand
  dsimp only
  rw [hlines, hexpansion]
  exact ⟨rfl, rfl⟩

end Documents

theorem endsApart_of_makes {context : EmbedContext} {nodes : List Node} {ledger : DriftLedger}
    {result : List Node × Expansion} {made : List Replacement}
    (hmakes : Expansion.Makes context nodes (.start ledger) result made)
    (hspoken : forall site, site ∈ outermostAll nodes -> context.Spoken site) {message : String}
    (hmessage : message ∈ result.2.errors ++ result.2.warnings ++
      result.2.embedded.invalid.flatMap InvalidEmbed.messages) : EndsApart message := by
  have hreplacement : forall replacement, replacement ∈ made ->
      Replaces context replacement.site replacement.nodes ∧ context.Spoken replacement.site := by
    intro replacement hmem
    refine ⟨hmakes.replaces replacement hmem, hspoken _ ?_⟩
    rw [← hmakes.sites]
    exact List.mem_map_of_mem hmem
  rw [hmakes.adds.errors, hmakes.adds.warnings, hmakes.adds.invalid, List.mem_append,
    List.mem_append] at hmessage
  rcases hmessage with (herror | hwarning) | hinvalid
  · obtain ⟨replacement, hmem, hown⟩ := List.mem_flatMap.mp herror
    obtain ⟨hreplaces, hsite⟩ := hreplacement replacement hmem
    exact Replacement.endsApart_messages hreplaces hsite hown
  · obtain ⟨replacement, hmem, hown⟩ := List.mem_flatMap.mp hwarning
    obtain ⟨hreplaces, hsite⟩ := hreplacement replacement hmem
    exact Replacement.endsApart_messages hreplaces hsite hown
  · obtain ⟨marker, hmarker, hmem⟩ := List.mem_flatMap.mp hinvalid
    obtain ⟨replacement, hmade, hown⟩ := List.mem_flatMap.mp hmarker
    obtain ⟨hreplaces, hsite⟩ := hreplacement replacement hmade
    exact Replacement.endsApart_markers hreplaces hsite hown hmem

theorem endsApart_of_filled {context : EmbedContext} {document : Document} {source : String}
    (hparse : Document.parse source = .ok document) {ledger : DriftLedger}
    {result : List Node × Expansion} {made : List Replacement}
    (hmakes : Expansion.Makes context document.children (.start ledger) result made)
    (hspoken : forall site, site ∈ outermostAll document.children -> context.Spoken site)
    {content : Diagnostic} (hcontent : content ∈ diagnosticsIn result.1) {message : String}
    (hmessage : message ∈ content.messages) : EndsApart message := by
  obtain ⟨_, _, hparses⟩ := Document.parse_eq_ok_iff.mp hparse
  rw [hmakes.filled.diagnosticsIn_eq (Parser.diagnosticsIn_of_parses hparses),
    List.flatMap_map] at hcontent
  obtain ⟨replacement, hmem, hown⟩ := List.mem_flatMap.mp hcontent
  refine (hmakes.replaces replacement hmem).endsApart (hspoken _ ?_) hown hmessage
  rw [← hmakes.sites]
  exact List.mem_map_of_mem hmem

def surroundings (fs : FileSystem) (path : FilePath) (source : String) : EmbedContext :=
  ⟨directoryOf path, Text.linesOf source, Sources.preload fs (requested fs path)⟩

def expanded (fs : FileSystem) (ledger : DriftLedger) (path : FilePath) (source : String)
    (document : Document) : List Node × Expansion :=
  Expansion.expandNodes (surroundings fs path source) document.children (.start ledger)

theorem requested_eq {fs : FileSystem} {path : FilePath} {source : String} {document : Document}
    (h : readDocument fs path = .ok (source, document)) :
    requested fs path = Directive.requestedPaths document (directoryOf path) := by
  unfold requested
  rw [h]

theorem spoken_surroundings {fs : FileSystem} {path : FilePath} {source : String}
    {document : Document} (h : readDocument fs path = .ok (source, document)) {site : Site}
    (hsite : site ∈ outermostAll document.children) :
    (surroundings fs path source).Spoken site := by
  unfold surroundings
  rw [requested_eq h]
  intro file reason hfile hget
  obtain ⟨first, hfirst, _⟩ := Directive.firstSpelling_isSome (directoryOf path) hsite hfile
  have hview := Directive.view_requested fs hfirst
  cases htext : fs.textAt first with
  | error cause =>
      rw [htext] at hview
      have hcause := Sources.get_of_view_error hview
      dsimp only at hget
      rw [hcause] at hget
      rw [← Except.error.inj hget]
      exact FileSystem.endsApart_textAt htext
  | ok text =>
      rw [htext] at hview
      obtain ⟨tracked, hok⟩ := Sources.get_of_view_ok hview
      dsimp only at hget
      rw [hok] at hget
      cases hget

theorem isSome_find?_requested (fs : FileSystem) (directory : FilePath) {document : Document}
    {site : Site} (hsite : site ∈ outermostAll document.children) {file : String}
    (hfile : Directive.readFile site.tag = .ok file) :
    ((Sources.preload fs (Directive.requestedPaths document directory)).find?
      (Directive.resolve directory file)).isSome = true := by
  obtain ⟨first, hfirst, hsame⟩ := Directive.firstSpelling_isSome directory hsite hfile
  rw [Sources.find?_preload fs (Directive.distinct_requestedPaths document directory),
    Option.isSome_map, List.find?_isSome]
  exact ⟨first, Directive.firstSpelling_mem hfirst, hsame⟩

theorem parse_of_readDocument {fs : FileSystem} {path : FilePath} {source : String}
    {document : Document} (h : readDocument fs path = .ok (source, document)) :
    Document.parse source = .ok document := by
  unfold readDocument at h
  split at h
  · cases h
  · split at h
    · cases h
    · split at h
      · cases h
      · rename_i hparse
        cases h
        exact hparse

theorem compileDocument_eq {fs : FileSystem} {path : FilePath} {source : String}
    {document : Document} (h : readDocument fs path = .ok (source, document))
    (ledger : DriftLedger) :
    compileDocument fs ledger path =
      (.ok (expand fs ledger (directoryOf path) source document).1,
        (expand fs ledger (directoryOf path) source document).2) := by
  unfold compileDocument
  rw [h]

theorem compileDocument_eq_expanded {fs : FileSystem} {path : FilePath} {source : String}
    {document : Document} (h : readDocument fs path = .ok (source, document))
    (ledger : DriftLedger) :
    compileDocument fs ledger path =
      (.ok ⟨assemble
          { document with children := (expanded fs ledger path source document).1 }
          (expanded fs ledger path source document).2,
        (surroundings fs path source).sources.tracked⟩,
        (expanded fs ledger path source document).2.ledger) := by
  rw [compileDocument_eq h]
  unfold expand expanded surroundings
  rw [requested_eq h]

theorem report_expand {fs other : FileSystem} {directory : FilePath} {source respelled : String}
    {document : Document} (hlines : Text.linesOf respelled = Text.linesOf source)
    (hfiles : forall file, file ∈ Directive.requestedPaths document directory ->
      other.textAt file = fs.textAt file) (ledger : DriftLedger) :
    report (.ok (expand other ledger directory respelled document).1,
        (expand other ledger directory respelled document).2) =
      report (.ok (expand fs ledger directory source document).1,
        (expand fs ledger directory source document).2) := by
  obtain ⟨hvalue, hledger⟩ := expand_of_textAt ledger hlines hfiles
  have hdistinct := Directive.distinct_requestedPaths document directory
  have hpaths : (expand other ledger directory respelled document).1.dependencies.map
        TrackedFile.path =
      (expand fs ledger directory source document).1.dependencies.map TrackedFile.path :=
    (Sources.tracked_paths other hdistinct).trans (Sources.tracked_paths fs hdistinct).symm
  unfold report
  dsimp only [Except.map]
  rw [hvalue, hledger, hpaths]

theorem report_of_textAt {fs other : FileSystem} {path : FilePath}
    (hdocument : (readDocument other path).map (Prod.map Text.linesOf id) =
      (readDocument fs path).map (Prod.map Text.linesOf id))
    (hfiles : forall file, file ∈ requested fs path -> other.textAt file = fs.textAt file)
    (ledger : DriftLedger) :
    report (compileDocument other ledger path) = report (compileDocument fs ledger path) := by
  cases hread : readDocument fs path with
  | error cause =>
      rw [hread] at hdocument
      cases hother : readDocument other path with
      | error reason =>
          rw [hother] at hdocument
          unfold compileDocument
          rw [hread, hother, Except.error.inj hdocument]
      | ok found =>
          rw [hother] at hdocument
          cases hdocument
  | ok found =>
      rcases found with ⟨source, document⟩
      rw [hread] at hdocument
      cases hother : readDocument other path with
      | error reason =>
          rw [hother] at hdocument
          cases hdocument
      | ok found =>
          rcases found with ⟨respelled, _⟩
          rw [hother] at hdocument
          obtain ⟨hlines, rfl⟩ := Prod.mk.inj (Except.ok.inj hdocument)
          rw [requested_eq hread] at hfiles
          rw [compileDocument_eq hread, compileDocument_eq hother]
          exact report_expand hlines hfiles ledger

/-- Whatever a document shows, its compile is complete. -/
theorem complete_compileDocument (fs : FileSystem) (ledger : DriftLedger) (path : FilePath) :
    Complete fs ledger path := by
  constructor
  case loaded =>
    intro source document _ site hsite file hfile
    exact isSome_find?_requested fs (directoryOf path) hsite hfile
  case unsaid =>
    intro computed hcomputed
    cases hread : readDocument fs path with
    | error cause =>
        unfold compileDocument at hcomputed
        rw [hread] at hcomputed
        cases hcomputed
    | ok found =>
        rcases found with ⟨source, document⟩
        rw [compileDocument_eq_expanded hread] at hcomputed
        obtain ⟨made, hmakes⟩ := Expansion.makes_expandNodes (surroundings fs path source)
          document.children (.start ledger)
        have hspoken : forall site, site ∈ outermostAll document.children ->
            (surroundings fs path source).Spoken site :=
          fun site hsite => spoken_surroundings hread hsite
        rw [← Except.ok.inj hcomputed]
        constructor
        · intro message hmessage
          exact (endsApart_of_makes hmakes hspoken hmessage).not_suffix
        · refine ⟨{ document with children := _ }, rfl, ?_⟩
          intro content hcontent message hmessage
          exact (endsApart_of_filled (parse_of_readDocument hread) hmakes hspoken hcontent
            hmessage).not_suffix
  case determined =>
    intro other hdocument hfiles
    have hsame : readDocument other path = readDocument fs path := readDocument_congr hdocument
    refine report_of_textAt (by rw [hsame]) (fun file hfile => ?_) ledger
    cases hread : readDocument fs path with
    | error cause =>
        unfold requested at hfile
        rw [hread] at hfile
        cases hfile
    | ok found =>
        rcases found with ⟨source, document⟩
        obtain ⟨tracked, htracked, rfl⟩ :=
          Sources.mem_paths_tracked fs (distinct_requested fs path) hfile
        have hcomputed := congrArg Prod.fst (compileDocument_eq_expanded hread ledger)
        exact FileSystem.textAt_congr (hfiles _ hcomputed tracked htracked)

def calloutFiles (modified : Timestamp) : FileSystem :=
  ((FileSystem.new [] ⟨0, 0⟩).put ["a.mdx"]
      (.file ⟨"<Callout>\n<EmbeddedFile file=\"b\" />\n</Callout>\n".toUTF8, ⟨0, 0⟩⟩)).put ["b"]
    (.file ⟨"one\n".toUTF8, modified⟩)

def touchedFiles : FileSystem :=
  (calloutFiles ⟨1, 0⟩).put ["c"] (.file ⟨"two\n".toUTF8, ⟨1, 0⟩⟩)

theorem complete_compileDocument_touched :
    (compileDocument (calloutFiles ⟨0, 0⟩) .empty ⟨"a.mdx"⟩).1.isOk = true ∧
      report (compileDocument touchedFiles .empty ⟨"a.mdx"⟩) =
        report (compileDocument (calloutFiles ⟨0, 0⟩) .empty ⟨"a.mdx"⟩) := by
  have hpaths : requested (calloutFiles ⟨0, 0⟩) ⟨"a.mdx"⟩ = [⟨"b"⟩] := by
    decide +kernel
  have hok : (compileDocument (calloutFiles ⟨0, 0⟩) .empty ⟨"a.mdx"⟩).1.isOk = true := by
    rw [isOk_compileDocument]
    decide +kernel
  refine ⟨hok, ?_⟩
  refine (complete_compileDocument (calloutFiles ⟨0, 0⟩) .empty ⟨"a.mdx"⟩).determined
    touchedFiles rfl ?_
  intro computed hcomputed file hfile
  rw [(compileDocument_ok hcomputed).right,
    (Sources.perm_tracked _ (distinct_requested _ _)).mem_iff, hpaths, List.map_singleton,
    List.mem_singleton] at hfile
  rw [hfile, TrackedFile.path_captureOrAbsent]
  rfl

end Compile
end LessonPress

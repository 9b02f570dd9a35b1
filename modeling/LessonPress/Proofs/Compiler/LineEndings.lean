import LessonPress.Proofs.Compiler.Dependencies
import LessonPress.Proofs.Embed.Settling
import LessonPress.Proofs.Text.Lines

/-!
# Line endings

## Files whose line feeds become pairs of a carriage return and a line feed

The document and the files that it shows may be converted, each of them or only some.  No part
of a compile notices: the document has the same lines, the files have the same texts, and the
ledger that is left is the same, so that a conversion is never taken for a drift.
-/

namespace LessonPress

open Node (outermostAll)

/-!
# Converted texts
-/

namespace Text

/-- The text with a carriage return in front of every line feed. -/
def withReturns : List Char -> List Char
  | [] => []
  | '\n' :: rest => '\r' :: '\n' :: withReturns rest
  | c :: rest => c :: withReturns rest

variable {text : List Char}

theorem not_return_cons {c : Char} (h : '\r' ∉ c :: text) : c ≠ '\r' ∧ '\r' ∉ text := by
  obtain ⟨hc, htext⟩ := not_or.mp (mt List.mem_cons.mpr h)
  exact ⟨Ne.symm hc, htext⟩

theorem withReturns_cons {c : Char} (hc : c ≠ '\n') (rest : List Char) :
    withReturns (c :: rest) = c :: withReturns rest :=
  withReturns.eq_3 c rest hc

theorem normalizeNewlines_cons {c : Char} (hc : c ≠ '\r') (rest : List Char) :
    normalizeNewlines (c :: rest) = c :: normalizeNewlines rest :=
  normalizeNewlines.eq_3 c rest fun _ heq => absurd heq hc

theorem lines_withReturns (h : '\r' ∉ text) : lines (withReturns text) = lines text := by
  induction text with
  | nil => rfl
  | cons c rest ih =>
      obtain ⟨hc, hrest⟩ := not_return_cons h
      by_cases hfeed : c = '\n'
      · rw [hfeed, withReturns, lines, lines, ih hrest]
      · rw [withReturns_cons hfeed, lines_cons hfeed fun heq => absurd heq hc,
          lines_cons hfeed fun heq => absurd heq hc, ih hrest]

theorem normalizeNewlines_of_not_mem (h : '\r' ∉ text) : normalizeNewlines text = text := by
  induction text with
  | nil => rfl
  | cons c rest ih =>
      obtain ⟨hc, hrest⟩ := not_return_cons h
      rw [normalizeNewlines_cons hc, ih hrest]

theorem normalizeNewlines_withReturns (h : '\r' ∉ text) :
    normalizeNewlines (withReturns text) = text := by
  induction text with
  | nil => rfl
  | cons c rest ih =>
      obtain ⟨hc, hrest⟩ := not_return_cons h
      by_cases hfeed : c = '\n'
      · rw [hfeed, withReturns, normalizeNewlines, ih hrest]
      · rw [withReturns_cons hfeed, normalizeNewlines_cons hc, ih hrest]

end Text

/-!
# Converted files
-/

/-- What is read of a file, and what is read of it after it may have been converted. -/
inductive Converted : Except IoError ByteArray -> Except IoError ByteArray -> Prop where
  | kept (found : Except IoError ByteArray) : Converted found found
  | rewritten (text : String) : '\r' ∉ text.toList ->
      Converted (.ok text.toUTF8) (.ok (String.ofList (Text.withReturns text.toList)).toUTF8)

theorem fromUTF8?_toUTF8 (text : String) : String.fromUTF8? text.toUTF8 = some text := by
  rw [String.toUTF8_eq_toByteArray]
  exact dif_pos text.isValidUTF8

namespace Converted

variable {fs other : FileSystem} {path : FilePath}

theorem textAt_eq (h : Converted (fs.read path) (other.read path)) :
    other.textAt path = fs.textAt path := by
  unfold FileSystem.textAt
  generalize fs.read path = found at h
  generalize other.read path = rewritten at h
  cases h with
  | kept => rfl
  | rewritten text hreturn =>
      dsimp only
      rw [fromUTF8?_toUTF8, fromUTF8?_toUTF8]
      dsimp only
      rw [String.toList_ofList, Text.normalizeNewlines_withReturns hreturn,
        Text.normalizeNewlines_of_not_mem hreturn]

theorem readDocument_eq (h : Converted (fs.read path) (other.read path)) :
    (Compile.readDocument other path).map (Prod.map Text.linesOf id) =
      (Compile.readDocument fs path).map (Prod.map Text.linesOf id) := by
  unfold Compile.readDocument
  generalize fs.read path = found at h
  generalize other.read path = rewritten at h
  cases h with
  | kept => rfl
  | rewritten text hreturn =>
      have hlines : Text.linesOf (String.ofList (Text.withReturns text.toList)) =
          Text.linesOf text := by
        unfold Text.linesOf
        rw [String.toList_ofList, Text.lines_withReturns hreturn]
      have hparse : Document.parse (String.ofList (Text.withReturns text.toList)) =
          Document.parse text := by
        unfold Document.parse
        rw [hlines]
      dsimp only
      rw [fromUTF8?_toUTF8, fromUTF8?_toUTF8]
      dsimp only
      rw [hparse]
      cases Document.parse text with
      | error cause => rfl
      | ok document =>
          dsimp only [Except.map, Prod.map]
          rw [hlines]

end Converted

/-!
# Compiles
-/

namespace Compile

variable {fs other : FileSystem} {path : FilePath} {source : String} {document : Document}

/-- Compiled a second time with the ledger that it has left, a document gets no warnings. -/
theorem quiet_compileDocument (hread : readDocument fs path = .ok (source, document))
    (htells : (surroundings fs path source).Tells (outermostAll document.children))
    (ledger : DriftLedger) :
    exists computed,
      (compileDocument fs (compileDocument fs ledger path).2 path).1 = .ok computed ∧
        computed.value.warnings = [] := by
  obtain ⟨made, hmakes⟩ := Expansion.makes_expandNodes (surroundings fs path source)
    document.children (.start ledger)
  have hagree := EmbedContext.Tells.agree htells
  have hledger := hmakes.adds.ledger
  rw [hmakes.sites] at hledger
  have hsettled : forall site, site ∈ outermostAll document.children ->
      site.Settled (surroundings fs path source)
        (expanded fs ledger path source document).2.ledger := by
    unfold expanded
    rw [hledger]
    exact Site.settled_foldl_observe hagree ledger
  have hquiet : Expansion.Quiet (surroundings fs path source) (outermostAll document.children)
      (.start (expanded fs ledger path source document).2.ledger)
      (expanded fs (expanded fs ledger path source document).2.ledger path source document).2 :=
    Expansion.quiet_expandNodes hagree (fun _ hsite => hsite) hsettled
  refine ⟨_, by rw [compileDocument_eq_expanded hread, compileDocument_eq_expanded hread], ?_⟩
  exact hquiet.warnings

/-- No compile notices a conversion.  Whatever ledger it starts with, the result is the one
without the conversion, and so is the ledger.  Compiled again after a conversion, a document gets
no warnings, unless the hash takes two of its embeds for one. -/
theorem conversion_unnoticed (hdocument : Converted (fs.read path) (other.read path))
    (hfiles : forall file, file ∈ requested fs path -> Converted (fs.read file) (other.read file)) :
    (forall ledger,
      report (compileDocument other ledger path) = report (compileDocument fs ledger path)) ∧
    forall ledger source document, readDocument fs path = .ok (source, document) ->
      (surroundings fs path source).Tells (outermostAll document.children) ->
      exists computed,
        (compileDocument other (compileDocument fs ledger path).2 path).1 = .ok computed ∧
          computed.value.warnings = [] := by
  have hreport : forall ledger,
      report (compileDocument other ledger path) = report (compileDocument fs ledger path) :=
    report_of_textAt hdocument.readDocument_eq fun file hfile => (hfiles file hfile).textAt_eq
  refine ⟨hreport, ?_⟩
  intro ledger source document hread htells
  obtain ⟨computed, hcomputed, hwarnings⟩ := quiet_compileDocument hread htells ledger
  have hresult := congrArg Prod.fst (hreport (compileDocument fs ledger path).2)
  unfold report at hresult
  dsimp only at hresult
  rw [hcomputed] at hresult
  cases hother : (compileDocument other (compileDocument fs ledger path).2 path).1 with
  | error cause =>
      rw [hother] at hresult
      cases hresult
  | ok same =>
      rw [hother] at hresult
      obtain ⟨hvalue, _⟩ := Prod.mk.inj (Except.ok.inj hresult)
      refine ⟨same, rfl, ?_⟩
      rw [hvalue]
      exact hwarnings

def pageFiles (page shown : String) : FileSystem :=
  ((FileSystem.new [] ⟨0, 0⟩).put ["a.mdx"] (.file ⟨page.toUTF8, ⟨0, 0⟩⟩)).put ["b"]
    (.file ⟨shown.toUTF8, ⟨0, 0⟩⟩)

def feedFiles : FileSystem :=
  pageFiles "# A\n<EmbeddedFile file=\"b\" />\n" "one\n two\n"

def returnFiles : FileSystem :=
  pageFiles "# A\r\n<EmbeddedFile file=\"b\" />\r\n" "one\r\n two\r\n"

theorem conversion_unnoticed_page :
    Converted (feedFiles.read ⟨"a.mdx"⟩) (returnFiles.read ⟨"a.mdx"⟩) ∧
      (forall file, file ∈ requested feedFiles ⟨"a.mdx"⟩ ->
        Converted (feedFiles.read file) (returnFiles.read file)) ∧
      report (compileDocument returnFiles .empty ⟨"a.mdx"⟩) =
        report (compileDocument feedFiles .empty ⟨"a.mdx"⟩) ∧
      exists computed,
        (compileDocument returnFiles (compileDocument feedFiles .empty ⟨"a.mdx"⟩).2
          ⟨"a.mdx"⟩).1 = .ok computed ∧ computed.value.warnings = [] := by
  have hdocument : Converted (feedFiles.read ⟨"a.mdx"⟩) (returnFiles.read ⟨"a.mdx"⟩) :=
    .rewritten "# A\n<EmbeddedFile file=\"b\" />\n" (by decide)
  have hrequested : requested feedFiles ⟨"a.mdx"⟩ = [⟨"b"⟩] := by decide +kernel
  have hfiles : forall file, file ∈ requested feedFiles ⟨"a.mdx"⟩ ->
      Converted (feedFiles.read file) (returnFiles.read file) := by
    intro file hfile
    rw [hrequested] at hfile
    rw [List.mem_singleton.mp hfile]
    exact .rewritten "one\n two\n" (by decide)
  have hsites : (readDocument feedFiles ⟨"a.mdx"⟩).toOption.map
      (fun found => (outermostAll found.2.children).length) = some 1 := by decide +kernel
  obtain ⟨hreport, hquiet⟩ := conversion_unnoticed hdocument hfiles
  cases hread : readDocument feedFiles ⟨"a.mdx"⟩ with
  | error cause =>
      rw [hread] at hsites
      cases hsites
  | ok found =>
      rcases found with ⟨source, document⟩
      rw [hread] at hsites
      obtain ⟨site, hsite⟩ := List.length_eq_one_iff.mp (Option.some.inj hsites)
      refine ⟨hdocument, hfiles, hreport .empty, hquiet .empty source document hread ?_⟩
      rw [hsite]
      exact EmbedContext.tells_singleton _ site

end Compile
end LessonPress

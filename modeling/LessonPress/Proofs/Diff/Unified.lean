import LessonPress.Diff.UnifiedPrinter
import LessonPress.Proofs.Text.Lines

/-!
# Reading unified diffs

## What is read of printed sections

The header lines of a section are passed over, whatever they say, and of a hunk everything is
read up to the first removed line and added line that look like the two lines of a file header.
So the lines of all hunks are read back exactly if no hunk holds such a pair.
-/

namespace LessonPress

open Text (Line)

def Hunk.printLine (line : ChangeKind × List Char) : Line :=
  line.1.sign :: line.2

namespace Unified

open Text
open Hunk (printLine)

variable {hasHunks inHunk : Bool} {line next : Line} {rest : List Line}

/-!
# Single lines
-/

theorem readLines_hunkHeader (h : isHunkHeader line = true) :
    readLines hasHunks inHunk (line :: rest) = readLines hasHunks true rest := by
  rw [readLines, if_pos h]

theorem readLines_preamble (hheader : isHunkHeader line = false) (h : isPreamble line = true) :
    readLines hasHunks inHunk (line :: rest) = readLines hasHunks (!hasHunks) rest := by
  rw [readLines, if_neg (Bool.eq_false_iff.mp hheader), if_pos h]

theorem readLines_fileHeader (hheader : isHunkHeader line = false)
    (hpreamble : isPreamble line = false) (hold : isOldHeader line = true)
    (hnew : isNewHeader next = true) :
    readLines hasHunks inHunk (line :: next :: rest) = readLines hasHunks (!hasHunks) rest := by
  rw [readLines, if_neg (Bool.eq_false_iff.mp hheader), if_neg (Bool.eq_false_iff.mp hpreamble)]
  dsimp only
  rw [hold, hnew]
  rfl

theorem readLines_own (hheader : isHunkHeader line = false) (hpreamble : isPreamble line = false)
    (hpair : isOldHeader line = true -> forall other, rest.head? = some other ->
      isNewHeader other = false) :
    readLines hasHunks inHunk (line :: rest) =
      (if isPassedOver hasHunks inHunk line then [] else (readLine line).toList) ++
        readLines hasHunks inHunk rest := by
  rw [readLines, if_neg (Bool.eq_false_iff.mp hheader), if_neg (Bool.eq_false_iff.mp hpreamble)]
  cases rest with
  | nil =>
      dsimp only
      rw [readLines, List.append_nil]
  | cons other more =>
      have hnone : (isOldHeader line && isNewHeader other) = false := by
        cases hold : isOldHeader line with
        | false => rfl
        | true => exact hpair hold other rfl
      dsimp only
      rw [hnone]
      rfl

/-!
# Lines of a hunk
-/

theorem isHunkHeader_printLine (entry : ChangeKind × List Char) :
    isHunkHeader (printLine entry) = false := by
  obtain ⟨kind, text⟩ := entry
  cases kind <;> rfl

theorem isPreamble_printLine (entry : ChangeKind × List Char) :
    isPreamble (printLine entry) = false := by
  obtain ⟨kind, text⟩ := entry
  cases kind <;> rfl

theorem isPassedOver_printLine (entry : ChangeKind × List Char) :
    isPassedOver true inHunk (printLine entry) = !inHunk := by
  obtain ⟨kind, text⟩ := entry
  cases kind <;> cases inHunk <;> rfl

theorem readLine_printLine (entry : ChangeKind × List Char) :
    readLine (printLine entry) = some entry := by
  obtain ⟨kind, text⟩ := entry
  cases kind <;> rfl

theorem sign_injective {kind other : ChangeKind} (h : kind.sign = other.sign) : kind = other := by
  cases kind <;> cases other <;> first | rfl | exact absurd h (by decide)

theorem startsWith_printLine_iff {kind : ChangeKind} {opening : List Char}
    {entry : ChangeKind × List Char} :
    startsWith (kind.sign :: opening) (printLine entry) = true <->
      exists name, entry = (kind, opening ++ name) := by
  obtain ⟨other, text⟩ := entry
  rw [startsWith_iff]
  constructor
  · rintro ⟨name, hprint⟩
    obtain ⟨hsign, htext⟩ := List.cons.inj hprint
    exact ⟨name, Prod.ext (sign_injective hsign) htext⟩
  · rintro ⟨name, hentry⟩
    cases hentry
    exact ⟨name, rfl⟩

theorem isOldHeader_printLine_iff {entry : ChangeKind × List Char} :
    isOldHeader (printLine entry) = true <->
      exists name, entry = (.remove, "-- ".toList ++ name) := by
  change startsWith (ChangeKind.remove.sign :: "-- ".toList) (printLine entry) = true <-> _
  exact startsWith_printLine_iff

theorem isNewHeader_printLine_iff {entry : ChangeKind × List Char} :
    isNewHeader (printLine entry) = true <->
      exists name, entry = (.add, "++ ".toList ++ name) := by
  change startsWith (ChangeKind.add.sign :: "++ ".toList) (printLine entry) = true <-> _
  exact startsWith_printLine_iff

def readsAsFileHeader (entry : ChangeKind × List Char)
    (following : Option (ChangeKind × List Char)) : Bool :=
  isOldHeader (printLine entry) && following.any fun other => isNewHeader (printLine other)

/-- The lines of a hunk that are read: those in front of the first pair that looks like the
header of a file. -/
def beforeFileHeader : List (ChangeKind × List Char) -> List (ChangeKind × List Char)
  | [] => []
  | entry :: rest =>
      if readsAsFileHeader entry rest.head? then [] else entry :: beforeFileHeader rest

/-- A removed line whose text starts with two minus signs and a blank stands right in front of an
added line whose text starts with two plus signs and a blank. -/
def HasFileHeader (entries : List (ChangeKind × List Char)) : Prop :=
  exists front old new back, entries =
    front ++ (.remove, "-- ".toList ++ old) :: (.add, "++ ".toList ++ new) :: back

theorem length_beforeFileHeader_le (entries : List (ChangeKind × List Char)) :
    (beforeFileHeader entries).length ≤ entries.length := by
  fun_induction beforeFileHeader entries with
  | case1 => exact Nat.le_refl _
  | case2 => exact Nat.zero_le _
  | case3 entry rest hnone ih => exact Nat.succ_le_succ ih

theorem readsAsFileHeader_iff {entry : ChangeKind × List Char}
    {rest : List (ChangeKind × List Char)} :
    readsAsFileHeader entry rest.head? = true <->
      exists old new back, entry = (.remove, "-- ".toList ++ old) ∧
        rest = (.add, "++ ".toList ++ new) :: back := by
  unfold readsAsFileHeader
  rw [Bool.and_eq_true, isOldHeader_printLine_iff]
  cases rest with
  | nil =>
      refine ⟨?_, ?_⟩
      · rintro ⟨_, hnone⟩
        cases hnone
      · rintro ⟨_, _, _, _, hnone⟩
        cases hnone
  | cons other back =>
      rw [List.head?_cons, Option.any_some, isNewHeader_printLine_iff]
      constructor
      · rintro ⟨⟨old, rfl⟩, new, rfl⟩
        exact ⟨old, new, back, rfl, rfl⟩
      · rintro ⟨old, new, more, rfl, hother⟩
        exact ⟨⟨old, rfl⟩, new, (List.cons.inj hother).left⟩

theorem beforeFileHeader_eq_iff (entries : List (ChangeKind × List Char)) :
    beforeFileHeader entries = entries <-> ¬ HasFileHeader entries := by
  fun_induction beforeFileHeader entries with
  | case1 =>
      refine ⟨fun _ => ?_, fun _ => rfl⟩
      rintro ⟨front, old, new, back, hnone⟩
      exact absurd hnone (by simp)
  | case2 entry rest hpair =>
      obtain ⟨old, new, back, rfl, rfl⟩ := readsAsFileHeader_iff.mp hpair
      exact ⟨nofun, fun hnone => absurd ⟨[], old, new, back, rfl⟩ hnone⟩
  | case3 entry rest hnone ih =>
      rw [List.cons.injEq, ih]
      constructor
      · rintro ⟨_, hrest⟩ ⟨front, old, new, back, hentries⟩
        cases front with
        | nil =>
            obtain ⟨rfl, rfl⟩ := List.cons.inj hentries
            exact hnone (readsAsFileHeader_iff.mpr ⟨old, new, back, rfl, rfl⟩)
        | cons first front =>
            exact hrest ⟨front, old, new, back, (List.cons.inj hentries).right⟩
      · intro hentries
        refine ⟨rfl, ?_⟩
        rintro ⟨front, old, new, back, rfl⟩
        exact hentries ⟨entry :: front, old, new, back, rfl⟩

/-!
# What follows a hunk

A hunk is followed by the header of another one, by the first line of another section or by
nothing.  What is read from there on does not hang on what was read before.
-/

structure Opens (tail : List Line) : Prop where
  head : forall other, tail.head? = some other -> isNewHeader other = false
  flag : forall inHunk, readLines true inHunk tail = readLines true false tail

/-- Whatever opens behind printed lines, these lines open and are read as their own part. -/
def Reads (printed : List Line) (own : List (ChangeKind × List Char)) : Prop :=
  forall tail, Opens tail -> Opens (printed ++ tail) ∧
    readLines true false (printed ++ tail) = own ++ readLines true false tail

theorem opens_nil : Opens [] where
  head := nofun
  flag := fun _ => rfl

theorem Reads.append {printed printed' : List Line} {own own' : List (ChangeKind × List Char)}
    (h : Reads printed own) (h' : Reads printed' own') :
    Reads (printed ++ printed') (own ++ own') := by
  intro tail htail
  obtain ⟨hopens', hreads'⟩ := h' tail htail
  obtain ⟨hopens, hreads⟩ := h (printed' ++ tail) hopens'
  rw [List.append_assoc, List.append_assoc, ← hreads']
  exact ⟨hopens, hreads⟩

theorem reads_nil : Reads [] [] := fun _ htail => ⟨htail, rfl⟩

theorem Reads.flatMap {alpha : Type} {print : alpha -> List Line}
    {own : alpha -> List (ChangeKind × List Char)} (list : List alpha)
    (h : forall item, Reads (print item) (own item)) :
    Reads (list.flatMap print) (list.flatMap own) := by
  induction list with
  | nil => exact reads_nil
  | cons item rest ih =>
      rw [List.flatMap_cons, List.flatMap_cons]
      exact (h item).append ih

/-!
# Hunks
-/

/-- A line that starts no pair in a hunk starts none with what follows the hunk. -/
theorem head_of_readsAsFileHeader {entry : ChangeKind × List Char}
    {rest : List (ChangeKind × List Char)} {tail : List Line} (h : Opens tail)
    (hpair : readsAsFileHeader entry rest.head? = false)
    (hold : isOldHeader (printLine entry) = true) (other : Line)
    (hother : (rest.map printLine ++ tail).head? = some other) : isNewHeader other = false := by
  cases rest with
  | nil => exact h.head other hother
  | cons following more =>
      obtain ⟨rfl⟩ := hother
      unfold readsAsFileHeader at hpair
      rw [hold] at hpair
      exact hpair

theorem readLines_outside (entries : List (ChangeKind × List Char)) {tail : List Line}
    (h : Opens tail) :
    readLines true false (entries.map printLine ++ tail) = readLines true false tail := by
  induction entries with
  | nil => rfl
  | cons entry rest ih =>
      rw [List.map_cons, List.cons_append]
      cases hpair : readsAsFileHeader entry rest.head? with
      | true =>
          obtain ⟨old, new, back, rfl, rfl⟩ := readsAsFileHeader_iff.mp hpair
          -- the second line of the pair opens nothing by itself
          have hnext : readLines true false
              (printLine (.add, "++ ".toList ++ new) :: (back.map printLine ++ tail)) =
                readLines true false (back.map printLine ++ tail) :=
            readLines_own (isHunkHeader_printLine _) (isPreamble_printLine _) nofun
          rw [List.map_cons, List.cons_append, hnext] at ih
          rw [List.map_cons, List.cons_append,
            readLines_fileHeader (isHunkHeader_printLine _) (isPreamble_printLine _)
              (isOldHeader_printLine_iff.mpr ⟨old, rfl⟩) (isNewHeader_printLine_iff.mpr ⟨new, rfl⟩)]
          exact ih
      | false =>
          rw [readLines_own (isHunkHeader_printLine entry) (isPreamble_printLine entry)
            (head_of_readsAsFileHeader h hpair), isPassedOver_printLine, ih]
          rfl

theorem readLines_inside (entries : List (ChangeKind × List Char)) {tail : List Line}
    (h : Opens tail) :
    readLines true true (entries.map printLine ++ tail) =
      beforeFileHeader entries ++ readLines true false tail := by
  induction entries with
  | nil => exact h.flag true
  | cons entry rest ih =>
      rw [List.map_cons, List.cons_append, beforeFileHeader]
      cases hpair : readsAsFileHeader entry rest.head? with
      | true =>
          obtain ⟨old, new, back, rfl, rfl⟩ := readsAsFileHeader_iff.mp hpair
          rw [List.map_cons, List.cons_append,
            readLines_fileHeader (isHunkHeader_printLine _) (isPreamble_printLine _)
              (isOldHeader_printLine_iff.mpr ⟨old, rfl⟩) (isNewHeader_printLine_iff.mpr ⟨new, rfl⟩)]
          exact readLines_outside back h
      | false =>
          rw [readLines_own (isHunkHeader_printLine entry) (isPreamble_printLine entry)
            (head_of_readsAsFileHeader h hpair), isPassedOver_printLine, readLine_printLine, ih]
          rfl

theorem reads_hunk (hunk : Hunk) : Reads hunk.print (beforeFileHeader hunk.lines) := by
  intro tail htail
  have hheader : forall inHunk, readLines true inHunk (hunk.print ++ tail) =
      readLines true true (hunk.lines.map printLine ++ tail) :=
    fun inHunk => readLines_hunkHeader (startsWith_append ['@', '@'] hunk.header)
  refine ⟨⟨?_, fun inHunk => (hheader inHunk).trans (hheader false).symm⟩, ?_⟩
  · rintro other ⟨⟩
    rfl
  · rw [hheader, readLines_inside hunk.lines htail]

/-!
# Sections
-/

theorem reads_preamble {line : Line} (hheader : isHunkHeader line = false)
    (hpreamble : isPreamble line = true) (hnew : isNewHeader line = false) :
    Reads [line] [] := by
  intro tail htail
  have hline : forall inHunk, readLines true inHunk ([line] ++ tail) = readLines true false tail :=
    fun inHunk => readLines_preamble hheader hpreamble
  refine ⟨⟨?_, fun inHunk => (hline inHunk).trans (hline false).symm⟩, hline false⟩
  rintro other ⟨⟩
  exact hnew

theorem reads_printOptional {label : String} (hheader : forall text,
    isHunkHeader (label.toList ++ text) = false) (hpreamble : forall text,
    isPreamble (label.toList ++ text) = true) (hnew : forall text,
    isNewHeader (label.toList ++ text) = false) (text : Option (List Char)) :
    Reads (FileSection.printOptional label text) [] := by
  cases text with
  | none => exact reads_nil
  | some text => exact reads_preamble (hheader text) (hpreamble text) (hnew text)

theorem reads_fileHeader (old new : List Char) :
    Reads ["--- ".toList ++ old, "+++ ".toList ++ new] [] := by
  intro tail htail
  have hpair : forall inHunk,
      readLines true inHunk (["--- ".toList ++ old, "+++ ".toList ++ new] ++ tail) =
        readLines true false tail :=
    fun inHunk => readLines_fileHeader rfl rfl (startsWith_append _ old) (startsWith_append _ new)
  refine ⟨⟨?_, fun inHunk => (hpair inHunk).trans (hpair false).symm⟩, hpair false⟩
  rintro other ⟨⟩
  rfl

theorem reads_section (changes : FileSection) :
    Reads changes.print (changes.hunks.flatMap fun hunk => beforeFileHeader hunk.lines) := by
  have hdiff : Reads (FileSection.printOptional "diff " changes.diffLine) [] :=
    reads_printOptional (fun _ => rfl) (fun _ => rfl) (fun _ => rfl) _
  have hindex : Reads (FileSection.printOptional "index " changes.indexLine) [] :=
    reads_printOptional (fun _ => rfl) (fun _ => rfl) (fun _ => rfl) _
  have hfront := (hdiff.append hindex).append (reads_fileHeader changes.oldName changes.newName)
  exact hfront.append (Reads.flatMap changes.hunks reads_hunk)

theorem readLines_sections (sections : List FileSection) :
    readLines true false (sections.flatMap FileSection.print) =
      (sections.flatMap FileSection.hunks).flatMap fun hunk => beforeFileHeader hunk.lines := by
  obtain ⟨_, hreads⟩ := Reads.flatMap sections reads_section [] opens_nil
  rw [List.append_nil] at hreads
  rw [hreads, List.flatMap_assoc]
  exact List.append_nil _

end Unified

/-!
# The text of sections
-/

open Text (dropReturn dropReturn_append)

namespace Hunk

/-- No line feed stands inside of a line, and no line behind the header ends in a carriage
return. -/
structure WellFormed (hunk : Hunk) : Prop where
  header : '\n' ∉ hunk.header
  texts : forall entry, entry ∈ hunk.lines -> Text.Whole entry.2

/-- A carriage return at the end of the header belongs to the end of the line. -/
def dropReturns (hunk : Hunk) : Hunk :=
  { hunk with header := dropReturn hunk.header }

theorem whole_printLine {entry : ChangeKind × List Char} (h : Text.Whole entry.2) :
    Text.Whole (printLine entry) := by
  obtain ⟨kind, text⟩ := entry
  have hsign : kind.sign ≠ '\n' ∧ kind.sign ≠ '\r' := by
    cases kind <;> exact ⟨by decide, by decide⟩
  constructor
  · intro hfeed
    rcases List.mem_cons.mp hfeed with hkind | htext
    · exact hsign.left hkind.symm
    · exact h.feed htext
  · unfold printLine
    cases text with
    | nil => simpa using hsign.right
    | cons c rest =>
        rw [List.getLast?_cons_cons]
        exact h.last

theorem feed_not_mem_print {hunk : Hunk} (h : hunk.WellFormed) {line : Line}
    (hline : line ∈ hunk.print) : '\n' ∉ line := by
  rcases List.mem_cons.mp hline with rfl | hmem
  · intro hfeed
    rcases List.mem_append.mp hfeed with hat | hheader
    · simp at hat
    · exact h.header hheader
  · obtain ⟨entry, hentry, rfl⟩ := List.mem_map.mp hmem
    exact (whole_printLine (h.texts entry hentry)).feed

theorem map_dropReturn_print {hunk : Hunk} (h : hunk.WellFormed) :
    hunk.print.map dropReturn = hunk.dropReturns.print := by
  unfold print
  rw [List.map_cons, dropReturn_append (by simp), List.map_map]
  exact congrArg _ (List.map_congr_left fun entry hentry =>
    (whole_printLine (h.texts entry hentry)).dropReturn)

end Hunk

namespace FileSection

structure WellFormed (changes : FileSection) : Prop where
  diffLine : forall text, changes.diffLine = some text -> '\n' ∉ text
  indexLine : forall text, changes.indexLine = some text -> '\n' ∉ text
  oldName : '\n' ∉ changes.oldName
  newName : '\n' ∉ changes.newName
  some_hunk : changes.hunks ≠ []
  hunks : forall hunk, hunk ∈ changes.hunks -> hunk.WellFormed

def dropReturns (changes : FileSection) : FileSection where
  diffLine := changes.diffLine.map dropReturn
  indexLine := changes.indexLine.map dropReturn
  oldName := dropReturn changes.oldName
  newName := dropReturn changes.newName
  hunks := changes.hunks.map Hunk.dropReturns

theorem map_dropReturn_printOptional {word : String} (h : word.toList.getLast? ≠ some '\r')
    (text : Option (List Char)) :
    (printOptional word text).map dropReturn = printOptional word (text.map dropReturn) := by
  cases text with
  | none => rfl
  | some text =>
      unfold printOptional
      rw [Option.map_some, List.map_singleton, dropReturn_append h]

theorem map_dropReturn_print {changes : FileSection} (h : changes.WellFormed) :
    changes.print.map dropReturn = changes.dropReturns.print := by
  have hhunks : (changes.hunks.flatMap Hunk.print).map dropReturn =
      (changes.hunks.map Hunk.dropReturns).flatMap Hunk.print := by
    rw [List.map_flatMap, List.flatMap_map, List.flatMap_def, List.flatMap_def]
    exact congrArg _ (List.map_congr_left fun hunk hhunk =>
      Hunk.map_dropReturn_print (h.hunks hunk hhunk))
  unfold print
  rw [List.map_append, List.map_append, List.map_append, hhunks,
    map_dropReturn_printOptional (by decide), map_dropReturn_printOptional (by decide),
    List.map_cons, List.map_singleton, dropReturn_append (by decide),
    dropReturn_append (by decide)]
  rfl

theorem feed_not_mem_printOptional {word : String} (hword : '\n' ∉ word.toList)
    {text : Option (List Char)}
    (htext : forall some_text, text = some some_text -> '\n' ∉ some_text)
    {line : Line} (hline : line ∈ printOptional word text) : '\n' ∉ line := by
  cases text with
  | none => cases hline
  | some text =>
      rw [List.mem_singleton.mp hline]
      intro hfeed
      exact (List.mem_append.mp hfeed).elim hword (htext text rfl)

theorem feed_not_mem_print {changes : FileSection} (h : changes.WellFormed) {line : Line}
    (hline : line ∈ changes.print) : '\n' ∉ line := by
  unfold print at hline
  simp only [List.mem_append] at hline
  rcases hline with ((hdiff | hindex) | hnames) | hhunks
  · exact feed_not_mem_printOptional (by decide) h.diffLine hdiff
  · exact feed_not_mem_printOptional (by decide) h.indexLine hindex
  · simp only [List.mem_cons, List.not_mem_nil, or_false] at hnames
    rcases hnames with rfl | rfl
    · intro hfeed
      exact (List.mem_append.mp hfeed).elim (by decide) h.oldName
    · intro hfeed
      exact (List.mem_append.mp hfeed).elim (by decide) h.newName
  · obtain ⟨hunk, hhunk, hline⟩ := List.mem_flatMap.mp hhunks
    exact Hunk.feed_not_mem_print (h.hunks hunk hhunk) hline

theorem lines_printAll {sections : List FileSection}
    (h : forall changes, changes ∈ sections -> changes.WellFormed) :
    Text.lines (printAll sections) = (sections.map dropReturns).flatMap print := by
  have hfeed : forall line, line ∈ sections.flatMap print -> '\n' ∉ line := by
    intro line hline
    obtain ⟨changes, hchanges, hline⟩ := List.mem_flatMap.mp hline
    exact feed_not_mem_print (h changes hchanges) hline
  unfold printAll
  rw [Text.lines_flatMap_feed hfeed, List.map_flatMap, List.flatMap_map, List.flatMap_def,
    List.flatMap_def]
  exact congrArg _ (List.map_congr_left fun changes hchanges =>
    map_dropReturn_print (h changes hchanges))

def linesOf (sections : List FileSection) : List (ChangeKind × List Char) :=
  (sections.flatMap hunks).flatMap Hunk.lines

end FileSection

namespace DiffBlock

structure Holds (block : DiffBlock) (entries : List (ChangeKind × List Char))
    (language : Option String) : Prop where
  lines : (block.lines.map fun line => (line.kind, line.characters)) = entries
  hasAdditions : block.hasAdditions = true <-> exists text, (ChangeKind.add, text) ∈ entries
  hasRemovals : block.hasRemovals = true <-> exists text, (ChangeKind.remove, text) ∈ entries
  language : block.language = language

theorem characters_plain (kind : ChangeKind) (text : List Char) :
    (DiffLine.plain kind text).characters = text := by
  cases text with
  | nil => rfl
  | cons c rest =>
      change (String.ofList (c :: rest)).toList ++ [] = c :: rest
      rw [String.toList_ofList, List.append_nil]

theorem any_kind_iff (entries : List (ChangeKind × List Char)) (kind : ChangeKind) :
    (entries.any fun entry => entry.1 = kind) = true <-> exists text, (kind, text) ∈ entries := by
  rw [List.any_eq_true]
  constructor
  · rintro ⟨⟨other, text⟩, hmem, hkind⟩
    obtain rfl := of_decide_eq_true hkind
    exact ⟨text, hmem⟩
  · rintro ⟨text, hmem⟩
    exact ⟨(kind, text), hmem, decide_eq_true rfl⟩

theorem holds_ofLines (entries : List (ChangeKind × List Char)) (language : Option String) :
    (ofLines entries language).Holds entries language where
  lines := by
    unfold ofLines
    rw [List.map_map]
    refine (List.map_congr_left fun entry _ => ?_).trans (List.map_id entries)
    exact Prod.ext rfl (characters_plain entry.1 entry.2)
  hasAdditions := any_kind_iff entries .add
  hasRemovals := any_kind_iff entries .remove
  language := rfl

theorem any_isHunkHeader_print {changes : FileSection} (h : changes.hunks ≠ [])
    {rest : List FileSection} :
    (((changes :: rest).flatMap FileSection.print).any Unified.isHunkHeader) = true := by
  obtain ⟨hunk, more, hhunks⟩ := List.exists_cons_of_ne_nil h
  have hprint : ['@', '@'] ++ hunk.header ∈ changes.print := by
    unfold FileSection.print
    rw [hhunks]
    exact List.mem_append_right _ List.mem_cons_self
  exact List.any_eq_true.mpr ⟨_, List.mem_flatMap.mpr ⟨changes, List.mem_cons_self, hprint⟩,
    Text.startsWith_append _ _⟩

/-- What is read of the text of sections: of each hunk the lines in front of the first pair that
looks like the header of a file. -/
theorem ofUnified_printAll {sections : List FileSection}
    (h : forall changes, changes ∈ sections -> changes.WellFormed) (language : Option String) :
    ofUnified (String.ofList (FileSection.printAll sections)) language =
      ofLines ((sections.flatMap FileSection.hunks).flatMap fun hunk =>
        Unified.beforeFileHeader hunk.lines) language := by
  unfold ofUnified Text.linesOf
  rw [String.toList_ofList, FileSection.lines_printAll h]
  dsimp only
  cases sections with
  | nil =>
      rw [List.map_nil, List.flatMap_nil, Unified.readLines]
      rfl
  | cons first rest =>
      have hhunks : first.dropReturns.hunks ≠ [] := fun hnone =>
        (h first List.mem_cons_self).some_hunk (List.map_eq_nil_iff.mp hnone)
      have hsame : (((first :: rest).map FileSection.dropReturns).flatMap FileSection.hunks) =
          ((first :: rest).flatMap FileSection.hunks).map Hunk.dropReturns := by
        rw [List.flatMap_map, List.map_flatMap]
        rfl
      rw [List.map_cons, any_isHunkHeader_print hhunks, ← List.map_cons, Bool.not_true,
        Unified.readLines_sections, hsame, List.flatMap_map]
      rfl

theorem eq_of_flatMap_eq {alpha beta : Type} {part whole : alpha -> List beta} {list : List alpha}
    (hle : forall item, (part item).length ≤ (whole item).length)
    (h : list.flatMap part = list.flatMap whole) :
    forall item, item ∈ list -> part item = whole item := by
  have hlength : forall rest : List alpha,
      (rest.flatMap part).length ≤ (rest.flatMap whole).length := by
    intro rest
    induction rest with
    | nil => exact Nat.le_refl _
    | cons item rest ih =>
        rw [List.flatMap_cons, List.flatMap_cons, List.length_append, List.length_append]
        exact Nat.add_le_add (hle item) ih
  induction list with
  | nil => exact nofun
  | cons first rest ih =>
      rw [List.flatMap_cons, List.flatMap_cons] at h
      have hsum := congrArg List.length h
      rw [List.length_append, List.length_append] at hsum
      have hfirst := hle first
      have hrest := hlength rest
      obtain ⟨hsame, hmore⟩ := List.append_inj h (by omega)
      intro item hitem
      rcases List.mem_cons.mp hitem with rfl | hmem
      · exact hsame
      · exact ih hmore item hmem

/-- The lines of all hunks of printed sections are read back, in order and with their kinds,
exactly if no hunk holds a removed line and an added line behind it that look like the header of
a file. -/
theorem ofUnified_holds_iff {sections : List FileSection}
    (h : forall changes, changes ∈ sections -> changes.WellFormed) (language : Option String) :
    (ofUnified (String.ofList (FileSection.printAll sections)) language).Holds
        (FileSection.linesOf sections) language <->
      forall changes, changes ∈ sections -> forall hunk, hunk ∈ changes.hunks ->
        ¬ Unified.HasFileHeader hunk.lines := by
  rw [ofUnified_printAll h]
  constructor
  · intro hholds changes hchanges hunk hhunk
    have hread := (holds_ofLines _ language).lines.symm.trans hholds.lines
    have hall := eq_of_flatMap_eq
      (fun hunk : Hunk => Unified.length_beforeFileHeader_le hunk.lines) hread
    exact (Unified.beforeFileHeader_eq_iff hunk.lines).mp
      (hall hunk (List.mem_flatMap.mpr ⟨changes, hchanges, hhunk⟩))
  · intro hnone
    have hsame : ((sections.flatMap FileSection.hunks).flatMap fun hunk =>
        Unified.beforeFileHeader hunk.lines) = FileSection.linesOf sections := by
      unfold FileSection.linesOf
      rw [List.flatMap_def, List.flatMap_def]
      refine congrArg _ (List.map_congr_left fun hunk hhunk => ?_)
      obtain ⟨changes, hchanges, hmem⟩ := List.mem_flatMap.mp hhunk
      exact (Unified.beforeFileHeader_eq_iff hunk.lines).mpr (hnone changes hchanges hunk hmem)
    rw [hsame]
    exact holds_ofLines (FileSection.linesOf sections) language

def sectionOf (entries : List (ChangeKind × List Char)) : FileSection where
  diffLine := none
  indexLine := some "1..2".toList
  oldName := "a\r".toList
  newName := "b".toList
  hunks := [⟨" -1 +1 @@".toList, entries⟩]

def lookalikes : List (ChangeKind × List Char) :=
  [(.remove, "-- a".toList), (.context, []), (.add, "++ b".toList), (.add, "@@".toList),
    (.remove, "diff ".toList), (.remove, "-- c".toList), (.remove, "-- d".toList),
    (.add, "+ e".toList)]

def fileHeaderLines : List (ChangeKind × List Char) :=
  [(.context, "c".toList), (.remove, "-- a".toList), (.add, "++ b".toList)]

theorem wellFormed_sectionOf {entries : List (ChangeKind × List Char)}
    (h : forall entry, entry ∈ entries -> Text.Whole entry.2) :
    (sectionOf entries).WellFormed where
  diffLine := nofun
  indexLine := by
    rintro text ⟨⟩
    decide
  oldName := show '\n' ∉ "a\r".toList by decide
  newName := show '\n' ∉ "b".toList by decide
  some_hunk := nofun
  hunks := by
    intro hunk hhunk
    obtain rfl := List.mem_singleton.mp hhunk
    exact ⟨show '\n' ∉ " -1 +1 @@".toList by decide, h⟩

theorem ofUnified_holds_iff_lookalikes :
    (forall changes, changes ∈ [sectionOf lookalikes, sectionOf fileHeaderLines] ->
        changes.WellFormed) ∧
      (ofUnified (String.ofList (FileSection.printAll [sectionOf lookalikes, sectionOf []]))
        none).Holds (FileSection.linesOf [sectionOf lookalikes, sectionOf []]) none ∧
      ¬ (ofUnified (String.ofList (FileSection.printAll
          [sectionOf lookalikes, sectionOf fileHeaderLines])) none).Holds
        (FileSection.linesOf [sectionOf lookalikes, sectionOf fileHeaderLines]) none := by
  have hlookalikes : (sectionOf lookalikes).WellFormed := by
    refine wellFormed_sectionOf fun entry hentry => ?_
    simp only [lookalikes, List.mem_cons, List.not_mem_nil, or_false] at hentry
    rcases hentry with rfl | rfl | rfl | rfl | rfl | rfl | rfl | rfl <;>
      exact ⟨by decide, by decide⟩
  have hpair : (sectionOf fileHeaderLines).WellFormed := by
    refine wellFormed_sectionOf fun entry hentry => ?_
    simp only [fileHeaderLines, List.mem_cons, List.not_mem_nil, or_false] at hentry
    rcases hentry with rfl | rfl | rfl <;> exact ⟨by decide, by decide⟩
  have hempty : (sectionOf []).WellFormed := wellFormed_sectionOf nofun
  have hboth : forall changes, changes ∈ [sectionOf lookalikes, sectionOf fileHeaderLines] ->
      changes.WellFormed := by
    rintro changes (_ | ⟨_, _ | ⟨_, ⟨⟩⟩⟩)
    · exact hlookalikes
    · exact hpair
  refine ⟨hboth, (ofUnified_holds_iff ?_ none).mpr ?_, fun hholds => ?_⟩
  · rintro changes (_ | ⟨_, _ | ⟨_, ⟨⟩⟩⟩)
    · exact hlookalikes
    · exact hempty
  · rintro changes (_ | ⟨_, _ | ⟨_, ⟨⟩⟩⟩) hunk (_ | ⟨_, ⟨⟩⟩)
    · exact (Unified.beforeFileHeader_eq_iff _).mp (by decide +kernel)
    · exact (Unified.beforeFileHeader_eq_iff _).mp rfl
  · have hnone := (ofUnified_holds_iff hboth none).mp hholds (sectionOf fileHeaderLines)
      (List.mem_cons_of_mem _ List.mem_cons_self) _ List.mem_cons_self
    exact hnone ⟨[(.context, "c".toList)], "a".toList, "b".toList, [], rfl⟩

end DiffBlock
end LessonPress

import LessonPress.FileSystem.Basic
import LessonPress.Proofs.Text.Lines

/-!
# Names of a path

## The names of a joined path, of a path with another extension, and of a parent

A path is taken apart at its slashes.  A file name joined to a directory comes behind the
names of the directory, another extension changes that last name alone, and the names of a
parent are the first ones of the path.
-/

namespace LessonPress
namespace Text

theorem endsWith_singleton {c : Char} {text : List Char} :
    endsWith [c] text = true <-> exists front, text = front ++ [c] := by
  unfold endsWith
  rw [List.isSuffixOf_iff_suffix]
  constructor
  · rintro ⟨front, hfront⟩
    exact ⟨front, hfront.symm⟩
  · rintro ⟨front, hfront⟩
    exact ⟨front, hfront.symm⟩

end Text

namespace FilePath

/-!
# Names
-/

def namesIn (segments : List (List Char)) : List String :=
  (segments.filter fun segment => !segment.isEmpty).map String.ofList

@[simp] theorem namesIn_append (front rest : List (List Char)) :
    namesIn (front ++ rest) = namesIn front ++ namesIn rest := by
  simp [namesIn]

theorem namesIn_singleton {segment : List Char} (h : segment ≠ []) :
    namesIn [segment] = [String.ofList segment] := by
  simp [namesIn, h]

def names (path : FilePath) : List String :=
  namesIn path.segments

def body (path : FilePath) : List Char :=
  if path.isAbsolute then path.chars.drop 1 else path.chars

@[simp] theorem chars_ofChars (text : List Char) : (ofChars text).chars = text := by
  simp [chars, ofChars]

theorem isAbsolute_iff (path : FilePath) :
    path.isAbsolute = true <-> path.chars.head? = some '/' := by
  unfold isAbsolute Text.startsWith
  cases path.chars with
  | nil => exact ⟨nofun, nofun⟩
  | cons c rest =>
      simpa [List.isPrefixOf] using eq_comm

theorem chars_eq (path : FilePath) :
    path.chars = if path.isAbsolute then '/' :: path.body else path.body := by
  unfold body
  cases habsolute : path.isAbsolute with
  | false => rfl
  | true =>
      have hhead := path.isAbsolute_iff.mp habsolute
      cases hchars : path.chars with
      | nil =>
          rw [hchars] at hhead
          cases hhead
      | cons c rest =>
          rw [hchars] at hhead
          rw [Option.some.inj hhead]
          rfl

theorem segments_eq (path : FilePath) : path.segments = Text.splitAt '/' path.body := by
  rfl

theorem body_ofChars {absolute : Bool} {text : List Char}
    (h : absolute = false -> text.head? ≠ some '/') :
    (ofChars (if absolute then '/' :: text else text)).isAbsolute = absolute ∧
      (ofChars (if absolute then '/' :: text else text)).body = text := by
  cases absolute with
  | true =>
      have habsolute : (ofChars ('/' :: text)).isAbsolute = true := by
        rw [isAbsolute_iff, chars_ofChars]
        rfl
      refine ⟨habsolute, ?_⟩
      unfold body
      rw [if_pos rfl, if_pos habsolute, chars_ofChars]
      rfl
  | false =>
      have hrelative : (ofChars text).isAbsolute = false := by
        rw [← Bool.not_eq_true, isAbsolute_iff, chars_ofChars]
        exact h rfl
      refine ⟨hrelative, ?_⟩
      unfold body
      rw [if_neg Bool.false_ne_true, hrelative, if_neg Bool.false_ne_true, chars_ofChars]

theorem head?_body {path : FilePath} (h : path.isAbsolute = false) :
    path.body.head? ≠ some '/' := by
  unfold body
  rw [h, if_neg Bool.false_ne_true, ne_eq, ← isAbsolute_iff, h]
  exact Bool.false_ne_true

/-!
# File names
-/

structure EndsIn (path : FilePath) (front : List String) (name : String) : Prop where
  names_eq : path.names = front ++ [name]
  unslashed : Text.endsWith ['/'] path.chars = false
  plain : name ≠ "." ∧ name ≠ ".."

theorem EndsIn.chars_ne_nil {path : FilePath} {front : List String} {name : String}
    (h : path.EndsIn front name) : path.chars ≠ [] := by
  intro hempty
  have hnames := h.names_eq
  unfold names segments isAbsolute at hnames
  rw [hempty] at hnames
  exact List.concat_ne_nil _ _ hnames.symm

def Plain (segment : List Char) : Prop :=
  '/' ∉ segment ∧ segment ≠ [] ∧ segment ≠ ['.'] ∧ segment ≠ ['.', '.']

variable {path : FilePath} {segments : List (List Char)} {segment : List Char}

theorem slash_not_mem_segments (h : segment ∈ path.segments) : '/' ∉ segment :=
  Text.separator_not_mem_splitAt h

theorem unslashed_of_segments (h : path.segments = segments ++ [segment]) (hne : segment ≠ []) :
    Text.endsWith ['/'] path.chars = false := by
  rw [← Bool.not_eq_true, Text.endsWith_singleton]
  rintro ⟨front, hfront⟩
  have hnonempty : path.segments.getLast? ≠ some [] := by
    rw [h, List.getLast?_concat]
    exact fun heq => hne (Option.some.inj heq)
  have hlast : forall before, path.body = before ++ ['/'] -> False := by
    intro before hbody
    apply hnonempty
    rw [segments_eq, hbody, Text.splitAt_append]
    exact List.getLast?_concat
  have hchars := path.chars_eq
  cases habsolute : path.isAbsolute with
  | false =>
      rw [habsolute, if_neg Bool.false_ne_true, hfront] at hchars
      exact hlast front hchars.symm
  | true =>
      rw [habsolute, if_pos rfl, hfront] at hchars
      cases front with
      | nil =>
          have hbody : path.body = [] := (List.cons.inj hchars).right.symm
          apply hnonempty
          rw [segments_eq, hbody]
          rfl
      | cons c before => exact hlast before (List.cons.inj hchars).right.symm

theorem endsIn_of_segments (h : path.segments = segments ++ [segment]) (hplain : Plain segment) :
    path.EndsIn (namesIn segments) (String.ofList segment) where
  names_eq := by
    unfold names
    rw [h, namesIn_append, namesIn_singleton hplain.2.1]
  unslashed := unslashed_of_segments h hplain.2.1
  plain :=
    ⟨fun heq => hplain.2.2.1 (String.ofList_injective heq),
      fun heq => hplain.2.2.2 (String.ofList_injective heq)⟩

/-!
# Joined paths
-/

theorem endsWith_cons {c : Char} {text : List Char} :
    Text.endsWith [c] (c :: text) = true <-> text = [] ∨ Text.endsWith [c] text = true := by
  rw [Text.endsWith_singleton, Text.endsWith_singleton]
  constructor
  · rintro ⟨front, hfront⟩
    cases front with
    | nil => exact Or.inl (List.cons.inj hfront).right
    | cons d before => exact Or.inr ⟨before, (List.cons.inj hfront).right⟩
  · rintro (rfl | ⟨before, rfl⟩)
    · exact ⟨[], rfl⟩
    · exact ⟨c :: before, rfl⟩

theorem isAbsolute_of_plain (hplain : Plain segment) : (ofChars segment).isAbsolute = false := by
  rw [← Bool.not_eq_true, isAbsolute_iff, chars_ofChars]
  exact fun hhead => hplain.1 (List.mem_of_mem_head? hhead)

theorem head?_body_append {directory : FilePath} {rest : List Char}
    (h : directory.body = [] -> rest.head? ≠ some '/') :
    directory.isAbsolute = false -> (directory.body ++ rest).head? ≠ some '/' := by
  intro hrelative
  have hhead := head?_body hrelative
  cases hbody : directory.body with
  | nil => exact h hbody
  | cons c further =>
      rw [hbody] at hhead
      exact hhead

/-- A name is joined without a slash where there is one already. -/
theorem body_join (directory : FilePath) (hplain : Plain segment) :
    (directory.join (ofChars segment)).isAbsolute = directory.isAbsolute ∧
      (directory.join (ofChars segment)).body =
        if directory.body = [] ∨ Text.endsWith ['/'] directory.body = true then
          directory.body ++ segment
        else directory.body ++ '/' :: segment := by
  have hsegment : segment.head? ≠ some '/' :=
    fun hhead => hplain.1 (List.mem_of_mem_head? hhead)
  have hslash : (directory.chars.isEmpty || Text.endsWith ['/'] directory.chars) = true <->
      (directory.body = [] ∨ Text.endsWith ['/'] directory.body = true) := by
    rw [directory.chars_eq]
    cases directory.isAbsolute with
    | false => simp
    | true => simp [endsWith_cons]
  have hchars : forall rest : List Char, directory.chars ++ rest =
      if directory.isAbsolute then '/' :: (directory.body ++ rest) else directory.body ++ rest := by
    intro rest
    rw [directory.chars_eq]
    cases directory.isAbsolute <;> rfl
  unfold join
  rw [isAbsolute_of_plain hplain, if_neg Bool.false_ne_true, chars_ofChars]
  by_cases hend : directory.body = [] ∨ Text.endsWith ['/'] directory.body = true
  · rw [if_pos (hslash.mpr hend), if_pos hend, hchars]
    exact body_ofChars (head?_body_append fun _ => hsegment)
  · rw [if_neg fun h => hend (hslash.mp h), if_neg hend, hchars]
    exact body_ofChars (head?_body_append fun hbody => absurd (Or.inl hbody) hend)

theorem chars_join (directory : FilePath) (hplain : Plain segment) :
    exists gap, (gap = [] ∨ gap = ['/']) ∧
      directory.join (ofChars segment) = ofChars (directory.chars ++ gap ++ segment) := by
  unfold join
  rw [isAbsolute_of_plain hplain, if_neg Bool.false_ne_true, chars_ofChars]
  split
  · exact ⟨[], Or.inl rfl, by rw [List.append_nil]⟩
  · exact ⟨['/'], Or.inr rfl, by rw [List.append_assoc, List.singleton_append]⟩

theorem segments_join (directory : FilePath) (hplain : Plain segment) :
    exists segments, (directory.join (ofChars segment)).segments = segments ++ [segment] ∧
      namesIn segments = directory.names := by
  have hname := Text.splitAt_of_not_mem hplain.1
  rw [segments_eq, (body_join directory hplain).right]
  unfold names
  rw [segments_eq]
  by_cases hend : directory.body = [] ∨ Text.endsWith ['/'] directory.body = true
  · rw [if_pos hend]
    rcases hend with hbody | hslash
    · rw [hbody]
      exact ⟨[], hname, rfl⟩
    · obtain ⟨front, hfront⟩ := Text.endsWith_singleton.mp hslash
      rw [hfront, List.append_assoc, List.singleton_append, Text.splitAt_append,
        Text.splitAt_append, hname]
      exact ⟨_, rfl, by simp [namesIn, Text.splitAt]⟩
  · rw [if_neg hend, Text.splitAt_append, hname]
    exact ⟨_, rfl, rfl⟩

/-!
# Paths from segments
-/

theorem rebuild_segments {absolute : Bool} (hne : segments ≠ [])
    (hslash : forall segment, segment ∈ segments -> '/' ∉ segment)
    (hhead : absolute = false -> segments.head? ≠ some []) :
    (rebuild absolute segments).isAbsolute = absolute ∧
      (rebuild absolute segments).segments = segments := by
  have hstart : absolute = false -> (Text.joinWith ['/'] segments).head? ≠ some '/' := by
    intro hrelative
    cases segments with
    | nil => exact absurd rfl hne
    | cons first rest =>
        cases first with
        | nil => exact absurd rfl (hhead hrelative)
        | cons c more =>
            have hc : c ≠ '/' :=
              fun heq => hslash _ List.mem_cons_self (heq ▸ List.mem_cons_self)
            have hjoin : (Text.joinWith ['/'] ((c :: more) :: rest)).head? = some c := by
              cases rest <;> rfl
            rw [hjoin]
            exact fun heq => hc (Option.some.inj heq)
  obtain ⟨habsolute, hbody⟩ := body_ofChars hstart
  refine ⟨habsolute, ?_⟩
  rw [segments_eq]
  exact (congrArg _ hbody).trans (Text.splitAt_joinWith hne hslash)

theorem head?_segments (hrelative : path.isAbsolute = false) (hne : path.segments ≠ [[]]) :
    path.segments.head? ≠ some [] := by
  rw [segments_eq] at hne ⊢
  apply Text.head?_splitAt (head?_body hrelative)
  intro hbody
  rw [hbody] at hne
  exact hne rfl

theorem map_markSegments (path : FilePath) : path.markSegments.map (·.1) = path.segments := by
  unfold markSegments
  cases path.segments with
  | nil => rfl
  | cons first rest => simp [Function.comp_def]

theorem dropIdle_front (marked : List (List Char × Bool)) : dropIdle marked <+: marked := by
  unfold dropIdle
  rw [← List.reverse_suffix, List.reverse_reverse]
  exact List.dropWhile_suffix _

theorem dropIdle_concat (marked : List (List Char × Bool)) (segment : List Char) :
    dropIdle (marked ++ [(segment, true)]) = marked ++ [(segment, true)] := by
  simp [dropIdle]

/-!
# Extensions
-/

theorem counts_of_plain (first : Bool) (hplain : Plain segment) : counts first segment = true := by
  simp [counts, hplain.2.1, hplain.2.2.1]

theorem markSegments_concat (h : path.segments = segments ++ [segment]) (hplain : Plain segment) :
    exists marked, path.markSegments = marked ++ [(segment, true)] ∧
      marked.map (·.1) = segments := by
  unfold markSegments
  rw [h]
  cases segments with
  | nil => exact ⟨[], by simp [counts_of_plain _ hplain], rfl⟩
  | cons first rest =>
      refine ⟨(first, counts (!path.isAbsolute) first) ::
        rest.map fun segment => (segment, counts false segment), ?_, ?_⟩
      · simp [counts_of_plain _ hplain]
      · simp [Function.comp_def]

theorem fileName_of_segments (h : path.segments = segments ++ [segment]) (hplain : Plain segment) :
    path.fileName = some (String.ofList segment) := by
  have hcomponent : componentOf segment = .name (String.ofList segment) := by
    unfold componentOf
    rw [if_neg hplain.2.2.1, if_neg hplain.2.2.2]
  have hlast : exists front, path.components = front ++ [componentOf segment] := by
    unfold components
    cases path.isAbsolute with
    | true => 
        refine ⟨.root :: ((segments.filter (counts false)).map componentOf), ?_⟩
        simp [h, counts_of_plain _ hplain]
    | false => 
        rw [h]
        cases segments with
        | nil => exact ⟨[], by simp [counts_of_plain _ hplain]⟩
        | cons first rest =>
            by_cases hfirst : counts true first = true
            · refine ⟨componentOf first :: ((rest.filter (counts false)).map componentOf), ?_⟩
              simp [hfirst, counts_of_plain _ hplain]
            · refine ⟨(rest.filter (counts false)).map componentOf, ?_⟩
              simp [hfirst, counts_of_plain _ hplain]
  obtain ⟨front, hfront⟩ := hlast
  unfold fileName
  rw [hfront, List.reverse_concat, hcomponent]

theorem withExtension_segments {stem : List Char} (extension : String)
    (h : path.segments = segments ++ [segment]) (hplain : Plain segment)
    (hstem : (splitExtension segment).1 = stem) (hextension : extension ≠ "")
    (hslash : '/' ∉ stem ∧ '/' ∉ extension.toList) :
    (path.withExtension extension).isAbsolute = path.isAbsolute ∧
      (path.withExtension extension).segments =
        segments ++ [stem ++ '.' :: extension.toList] := by
  obtain ⟨marked, hmarked, hsegments⟩ := markSegments_concat h hplain
  have hpath : path.withExtension extension =
      rebuild path.isAbsolute (segments ++ [stem ++ '.' :: extension.toList]) := by
    unfold withExtension
    rw [fileName_of_segments h hplain]
    dsimp only
    rw [hmarked, dropIdle_concat, List.reverse_concat]
    dsimp only
    rw [List.reverse_reverse, hsegments, String.toList_ofList, hstem]
    simp [hextension]
  rw [hpath]
  apply rebuild_segments (by simp)
  · intro other hother
    rcases List.mem_append.mp hother with hfront | hfile
    · exact slash_not_mem_segments (h ▸ List.mem_append_left _ hfront)
    · rw [List.mem_singleton.mp hfile, List.mem_append, List.mem_cons]
      rintro (hmem | hdot | hmem)
      · exact hslash.1 hmem
      · exact absurd hdot (by decide)
      · exact hslash.2 hmem
  · intro hrelative
    cases segments with
    | nil => simp
    | cons first rest =>
        have hhead := head?_segments hrelative
        rw [h] at hhead
        exact hhead (by simp)

/-!
# Parents
-/

theorem segments_ne_of_marked (h : dropIdle path.markSegments ≠ []) : path.segments ≠ [[]] := by
  intro hsegments
  unfold markSegments at h
  rw [hsegments] at h
  exact h rfl

theorem names_rebuild {kept : List (List Char)} (hkept : kept <+: path.segments)
    (hne : path.segments ≠ [[]]) :
    (rebuild path.isAbsolute kept).isAbsolute = path.isAbsolute ∧
      (rebuild path.isAbsolute kept).names <+: path.names := by
  cases kept with
  | nil =>
      have hstart : path.isAbsolute = false -> ([] : List Char).head? ≠ some '/' :=
        fun _ => nofun
      obtain ⟨habsolute, hbody⟩ := body_ofChars hstart
      have hnames : (rebuild path.isAbsolute []).names = [] := by
        unfold names
        rw [segments_eq]
        exact congrArg (fun text => namesIn (Text.splitAt '/' text)) hbody
      refine ⟨habsolute, ?_⟩
      rw [hnames]
      exact List.nil_prefix
  | cons first rest =>
      obtain ⟨further, hfurther⟩ := hkept
      have hhead : path.isAbsolute = false -> (first :: rest).head? ≠ some [] := by
        intro hrelative
        have hpath := head?_segments hrelative hne
        rw [← hfurther] at hpath
        exact hpath
      have hslash : forall segment, segment ∈ first :: rest -> '/' ∉ segment :=
        fun segment hsegment =>
          slash_not_mem_segments (hfurther ▸ List.mem_append_left _ hsegment)
      obtain ⟨habsolute, hsame⟩ := rebuild_segments (List.cons_ne_nil _ _) hslash hhead
      refine ⟨habsolute, ?_⟩
      unfold names
      rw [hsame, ← hfurther, namesIn_append]
      exact List.prefix_append _ _

theorem parent_names {parent : FilePath} (h : path.parent = some parent) :
    parent.isAbsolute = path.isAbsolute ∧ parent.names <+: path.names := by
  unfold FilePath.parent at h
  split at h
  · cases h
  · rename_i last front hfront
    have hmarks : dropIdle path.markSegments = front.reverse ++ [last] := by
      rw [← List.reverse_reverse (dropIdle path.markSegments), hfront, List.reverse_cons]
    have hmarked : dropIdle front.reverse <+: path.markSegments :=
      ((dropIdle_front _).trans (hmarks ▸ List.prefix_append _ _)).trans (dropIdle_front _)
    have hsegments : (dropIdle front.reverse).map (·.1) <+: path.segments := by
      rw [← map_markSegments]
      exact hmarked.map _
    have hne := segments_ne_of_marked (by
      rw [hmarks]
      exact List.concat_ne_nil _ _)
    rw [← Option.some.inj h]
    exact names_rebuild hsegments hne

theorem mark_of_plain {entry : List Char × Bool} (h : entry ∈ path.markSegments)
    (hplain : Plain entry.1) : entry.2 = true := by
  unfold markSegments at h
  cases hsegments : path.segments with
  | nil =>
      rw [hsegments] at h
      cases h
  | cons first rest =>
      rw [hsegments] at h
      rcases List.mem_cons.mp h with rfl | hrest
      · exact counts_of_plain _ hplain
      · obtain ⟨other, _, rfl⟩ := List.mem_map.mp hrest
        exact counts_of_plain _ hplain

theorem parent_of_segments {above : List Char}
    (h : path.segments = segments ++ [above] ++ [segment]) (habove : Plain above)
    (hplain : Plain segment) :
    path.parent = some (rebuild path.isAbsolute (segments ++ [above])) := by
  obtain ⟨marked, hmarked, hsegments⟩ := markSegments_concat h hplain
  obtain ⟨front, last, rfl, _, hlast⟩ := List.map_eq_append_iff.mp hsegments
  cases last with
  | nil => cases hlast
  | cons entry more =>
      obtain ⟨hentry, hmore⟩ := List.cons.inj hlast
      rw [List.map_eq_nil_iff.mp hmore] at hmarked hsegments
      change entry.1 = above at hentry
      have hmember : entry ∈ path.markSegments := by
        rw [hmarked]
        simp
      have hmark := mark_of_plain hmember (hentry ▸ habove)
      have hwhole : entry = (above, true) := Prod.ext hentry hmark
      unfold FilePath.parent
      rw [hmarked, dropIdle_concat, List.reverse_concat]
      dsimp only
      rw [List.reverse_reverse, hwhole, dropIdle_concat, ← hwhole, hsegments]

theorem ancestors_names {parent : FilePath} (h : parent ∈ path.ancestors) :
    parent.isAbsolute = path.isAbsolute ∧ parent.names <+: path.names := by
  unfold ancestors at h
  generalize path.chars.length = fuel at h
  induction fuel generalizing path with
  | zero => cases h
  | succ fuel ih =>
      unfold ancestorsUpTo at h
      cases hparent : path.parent with
      | none =>
          rw [hparent] at h
          cases h
      | some directory =>
          rw [hparent] at h
          obtain ⟨habsolute, hnames⟩ := parent_names hparent
          rcases List.mem_cons.mp h with rfl | hfurther
          · exact ⟨habsolute, hnames⟩
          · obtain ⟨hstart, hfront⟩ := ih hfurther
            exact ⟨hstart.trans habsolute, hfront.trans hnames⟩

end FilePath
end LessonPress

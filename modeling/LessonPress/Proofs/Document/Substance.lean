import LessonPress.Proofs.Document.Layout

/-!
# Characters that parsing keeps

## Every letter of a document is in its tree

Blanks and the marks that blocks are made of may get lost, but every other character of the
lines is in one of the nodes.  So the tree tells how many such characters there are, however
the lines are laid out.
-/

namespace LessonPress

open Text

namespace Text

/-- Whether the character is no blank and no mark of a heading, a break or a fence. -/
def isKept (c : Char) : Bool :=
  !isBlank c && !(c == '#' || c == '-' || c == '*' || c == '_' || c == '`' || c == '~')

def kept (text : List Char) : Nat :=
  text.countP isKept

theorem kept_append (front back : List Char) : kept (front ++ back) = kept front + kept back :=
  List.countP_append

theorem kept_cons (c : Char) (rest : List Char) : kept (c :: rest) = kept [c] + kept rest :=
  kept_append [c] rest

theorem kept_eq_zero {text : List Char} (h : forall c, c ∈ text -> isKept c = false) :
    kept text = 0 := by
  rw [kept, List.countP_eq_zero]
  intro c hc
  rw [h c hc]
  exact Bool.false_ne_true

theorem not_isKept_of_isBlank {c : Char} (h : isBlank c = true) : isKept c = false := by
  unfold isKept
  rw [h]
  rfl

theorem kept_blank {text : List Char} (h : isBlankLine text = true) : kept text = 0 :=
  kept_eq_zero fun c hc => not_isKept_of_isBlank (List.all_eq_true.mp h c hc)

theorem kept_dropWhile {drops : Char -> Bool} (h : forall c, drops c = true -> isKept c = false)
    (text : List Char) : kept (text.dropWhile drops) = kept text := by
  have hrun : kept (text.takeWhile drops) = 0 :=
    kept_eq_zero fun c hc => h c (List.all_eq_true.mp List.all_takeWhile c hc)
  have hboth := kept_append (text.takeWhile drops) (text.dropWhile drops)
  rw [List.takeWhile_append_dropWhile, hrun, Nat.zero_add] at hboth
  exact hboth.symm

theorem kept_reverse (text : List Char) : kept text.reverse = kept text :=
  List.countP_reverse

theorem kept_trimStart (text : List Char) : kept (trimStart text) = kept text :=
  kept_dropWhile (fun _ => not_isKept_of_isBlank) text

theorem kept_trimEnd (text : List Char) : kept (trimEnd text) = kept text := by
  unfold trimEnd
  rw [kept_reverse, kept_dropWhile (fun _ => not_isKept_of_isBlank), kept_reverse]

theorem kept_trim (text : List Char) : kept (trim text) = kept text := by
  unfold trim
  rw [kept_trimEnd, kept_trimStart]

def keptLines : List Line -> Nat
  | [] => 0
  | line :: rest => kept line + keptLines rest

theorem keptLines_cons (line : Line) (rest : List Line) :
    keptLines (line :: rest) = kept line + keptLines rest :=
  rfl

theorem keptLines_append (front back : List Line) :
    keptLines (front ++ back) = keptLines front + keptLines back := by
  induction front with
  | nil => exact (Nat.zero_add _).symm
  | cons line rest ih =>
      rw [List.cons_append, keptLines_cons, ih, keptLines_cons, Nat.add_assoc]

theorem kept_joinLines (block : List Line) : kept (joinLines block) = keptLines block := by
  induction block with
  | nil => rfl
  | cons line rest ih =>
      have hfeed : kept ['\n'] = 0 := by
        decide
      cases rest with
      | nil =>
          rw [keptLines_cons]
          rfl
      | cons next more =>
          rw [joinLines_cons_cons, kept_append, kept_cons, hfeed, ih, Nat.zero_add,
            keptLines_cons line]

theorem keptLines_map {change : Line -> Line} (h : forall line, kept (change line) = kept line)
    (block : List Line) : keptLines (block.map change) = keptLines block := by
  induction block with
  | nil => rfl
  | cons line rest ih => rw [List.map_cons, keptLines_cons, keptLines_cons, h, ih]

end Text

/-!
# Characters of nodes
-/

def AttributeValue.kept : AttributeValue -> Nat
  | string text => Text.kept text.toList + 3
  | expression text => Text.kept text.toList + 3
  | bare => 0

def Attribute.kept (entry : Attribute) : Nat :=
  Text.kept entry.name.toList + entry.value.kept

def Tag.keptEnd : List Attribute -> Bool -> Nat
  | [], selfClosing => if selfClosing then 2 else 1
  | entry :: rest, selfClosing => entry.kept + keptEnd rest selfClosing

def Tag.kept (tag : Tag) : Nat :=
  Text.kept tag.name.toList + Tag.keptEnd tag.attributes tag.selfClosing + 1

namespace Node

mutual

def kept : Node -> Nat
  | heading _ text _ => Text.kept text.toList
  | paragraph text _ => Text.kept text.toList
  | html value _ => Text.kept value.toList
  | thematicBreak _ => 0
  | code block => Text.kept (block.lang.getD "").toList + Text.kept (block.info.getD "").toList +
      Text.kept block.value.toList
  | element tag children _ => tag.kept + keptAll children +
      if tag.selfClosing then 0 else Text.kept (Parser.closingText tag.name)
  | diagnostic _ => 0

def keptAll : List Node -> Nat
  | [] => 0
  | node :: rest => node.kept + keptAll rest

end

mutual

theorem kept_unplaced (node : Node) : node.unplaced.kept = node.kept := by
  cases node with
  | element tag children position =>
      rw [unplaced, kept, kept, keptAll_unplacedAll]
  | _ => rfl

theorem keptAll_unplacedAll (nodes : List Node) : keptAll (unplacedAll nodes) = keptAll nodes := by
  cases nodes with
  | nil => rfl
  | cons node rest => rw [unplacedAll, keptAll, keptAll, kept_unplaced, keptAll_unplacedAll]

end

end Node

/-!
# Characters of tags
-/

namespace Cursor

/-- The equals sign in front of a value counts as well. -/
theorem kept_of_spelledValue {value : AttributeValue} {text : List Char} (h : value.Spelled text) :
    kept text + 1 = value.kept := by
  cases h with
  | @string quote inner hquote _ =>
      have hone : kept [quote] = 1 := by
        rcases hquote with rfl | rfl <;> decide
      rw [kept_cons, kept_append, hone, AttributeValue.kept, String.toList_ofList]
      omega
  | @expression inner _ =>
      have hopen : kept ['\x7b'] = 1 := by
        decide
      have hclose : kept ['\x7d'] = 1 := by
        decide
      rw [kept_cons, kept_append, hopen, hclose, AttributeValue.kept, String.toList_ofList,
        kept_trim]
      omega

theorem kept_of_spelled {entry : Attribute} {text : List Char} (h : entry.Spelled text) :
    kept text = entry.kept := by
  unfold Attribute.kept
  cases h with
  | bare _ =>
      rw [AttributeValue.kept, String.toList_ofList]
      rfl
  | @valued name before behind text value _ hbefore hbehind hvalue =>
      have hsign : kept ['='] = 1 := by
        decide
      rw [kept_append, kept_append, kept_cons, kept_append, kept_blank hbefore,
        kept_blank hbehind, hsign, ← kept_of_spelledValue hvalue, String.toList_ofList]
      omega

theorem kept_of_spelledTag {text : List Char} {entries : List Attribute} {selfClosing : Bool}
    (h : Tag.Spelled text entries selfClosing) : kept text = Tag.keptEnd entries selfClosing := by
  induction h with
  | opening hgap =>
      rw [kept_append, kept_blank hgap]
      rfl
  | selfClosing hgap =>
      rw [kept_append, kept_blank hgap]
      rfl
  | entry hgap hentry _ _ ih =>
      rw [kept_append, kept_append, kept_blank hgap, kept_of_spelled hentry, ih, Nat.zero_add,
        Tag.keptEnd]

end Cursor

namespace Parser

/-!
# Characters of elements
-/

theorem kept_textOf (line : Line) : kept (textOf line).toList = kept line := by
  unfold textOf
  rw [String.toList_ofList]

theorem kept_of_opening {first : Line} {tagLines : List Line} {tag : Tag}
    {text remainder : List Char} (h : Opening first tagLines tag text remainder) :
    keptLines (first :: tagLines) = tag.kept + kept remainder := by
  have hbracket : kept ['<'] = 1 := by
    decide
  have hjoined := congrArg kept h.joined
  rw [kept_joinLines, keptLines_cons, kept_trimStart, ← keptLines_cons, kept_cons, kept_append,
    kept_append, hbracket, Cursor.kept_of_spelledTag h.spelled] at hjoined
  rw [hjoined, Tag.kept]
  omega

theorem kept_inlineChildren (text : List Char) (line : Nat) :
    Node.keptAll (inlineChildren text line) = kept text := by
  unfold inlineChildren
  split
  · rename_i hblank
    exact (kept_blank hblank).symm
  · rw [Node.keptAll, Node.kept, kept_textOf, kept_trim]
    rfl

theorem kept_of_inline {tag : Tag} {remainder : List Char} {line : Nat} {children : List Node}
    (h : Inline tag remainder line children) : kept remainder =
      Node.keptAll children + if tag.selfClosing then 0 else kept (closingText tag.name) := by
  cases h with
  | selfClosing hclosing hblank =>
      rw [kept_blank hblank, hclosing]
      rfl
  | @closed inner hopen hinner =>
      rw [hopen, kept_inlineChildren, ← kept_trim, if_neg Bool.false_ne_true]
      unfold stripEnding at hinner
      split at hinner
      · rename_i hsuffix
        obtain ⟨front, hfront⟩ := List.isSuffixOf_iff_suffix.mp hsuffix
        cases hinner
        rw [← hfront, List.length_append, Nat.add_sub_cancel, List.take_left, kept_append]
      · cases hinner

/-!
# Characters of blocks
-/

theorem kept_trimEndOf {c : Char} (h : isKept c = false) (text : List Char) :
    kept (LineKind.trimEndOf c text) = kept text := by
  have hdrops : forall d, (d == c) = true -> isKept d = false := by
    intro d hd
    rw [beq_iff_eq.mp hd, h]
  unfold LineKind.trimEndOf
  rw [kept_reverse, kept_dropWhile hdrops, kept_reverse]

theorem kept_heading {body title : List Char} {depth : Nat}
    (h : LineKind.headingOf? body = some (depth, title)) : kept title = kept body := by
  have hsign : isKept '#' = false := by
    decide
  have hdrops : forall c, (c == '#') = true -> isKept c = false := by
    intro c hc
    rw [beq_iff_eq.mp hc, hsign]
  have hbody := kept_dropWhile hdrops body
  unfold LineKind.headingOf? at h
  dsimp only at h
  split at h
  · cases h
  · split at h
    · rename_i hrest
      cases h
      rw [← hbody, hrest]
    · rename_i c following hrest
      split at h
      · cases h
        rw [kept_trimEnd, kept_trimEndOf hsign, kept_trim, hbody]
      · cases h

theorem kept_thematicBreak {body : List Char} (h : LineKind.isThematicBreak body = true) :
    kept body = 0 := by
  unfold LineKind.isThematicBreak at h
  split at h
  · rfl
  · rename_i marker rest
    rw [Bool.and_eq_true, Bool.and_eq_true] at h
    obtain ⟨⟨hmarker, _⟩, hall⟩ := h
    apply kept_eq_zero
    intro c hc
    have hcases := List.all_eq_true.mp hall c hc
    simp only [Bool.or_eq_true, beq_iff_eq] at hmarker hcases
    rcases hcases with rfl | rfl
    · rcases hmarker with (rfl | rfl) | rfl <;> decide
    · decide

theorem not_isKept_marker {line : Line} {fence : Fence} (h : Fence.ofLine? line = some fence) :
    isKept fence.marker = false := by
  rcases (Fence.of_ofLine? h).left with heq | heq <;> rw [heq] <;> decide

theorem kept_info (fence : Fence) : kept fence.info =
    kept (fence.lang.getD "").toList + kept (fence.extra.getD "").toList := by
  have hlang : kept (fence.lang.getD "").toList =
      kept (fence.info.takeWhile fun c => !isBlank c) := by
    unfold Fence.lang
    dsimp only
    split
    · rename_i hempty
      rw [List.isEmpty_iff.mp hempty]
      rfl
    · rw [Option.getD_some, String.toList_ofList]
  have hextra : kept (fence.extra.getD "").toList =
      kept (fence.info.dropWhile fun c => !isBlank c) := by
    rw [← kept_trim (fence.info.dropWhile _)]
    unfold Fence.extra
    dsimp only
    split
    · rename_i hempty
      rw [List.isEmpty_iff.mp hempty]
      rfl
    · rw [Option.getD_some, String.toList_ofList]
  rw [hlang, hextra, ← kept_append, List.takeWhile_append_dropWhile]

theorem kept_fence {line : Line} {fence : Fence} (h : Fence.ofLine? line = some fence) :
    kept line = kept fence.info := by
  have hmarker := not_isKept_marker h
  rw [← kept_trimStart line]
  unfold Fence.ofLine? at h
  dsimp only at h
  split at h
  · cases h
  · rename_i marker rest hline
    split at h
    · cases h
    · split at h
      · cases h
      · cases h
        have hdrops : forall c, (c == marker) = true -> isKept c = false := by
          intro c hc
          rw [beq_iff_eq.mp hc]
          exact hmarker
        have hnone : kept [marker] = 0 := kept_eq_zero fun c hc => by
          rw [List.mem_singleton.mp hc]
          exact hmarker
        rw [hline, kept_cons, hnone, kept_trim, kept_dropWhile hdrops, Nat.zero_add]

theorem kept_unindent (fence : Fence) (line : Line) : kept (fence.unindent line) = kept line := by
  have hmin : min (line.takeWhile (· == ' ')).length fence.indent ≤
      (line.takeWhile (· == ' ')).length := Nat.min_le_left _ _
  have hfront : (line.takeWhile (· == ' ') ++ line.dropWhile (· == ' ')).take
      (min (line.takeWhile (· == ' ')).length fence.indent) =
        (line.takeWhile (· == ' ')).take (min (line.takeWhile (· == ' ')).length fence.indent) :=
    List.take_append_of_le_length hmin
  rw [List.takeWhile_append_dropWhile] at hfront
  have hspaces : kept (line.take (min (line.takeWhile (· == ' ')).length fence.indent)) = 0 := by
    rw [hfront]
    apply kept_eq_zero
    intro c hc
    have hspace : (c == ' ') = true :=
      List.all_eq_true.mp List.all_takeWhile c (List.mem_of_mem_take hc)
    rw [beq_iff_eq.mp hspace]
    decide
  have hboth := kept_append
    (line.take (min (line.takeWhile (· == ' ')).length fence.indent)) (fence.unindent line)
  unfold Fence.unindent at hboth ⊢
  rw [List.take_append_drop, hspaces, Nat.zero_add] at hboth
  exact hboth.symm

theorem kept_closes {fence : Fence} {line : Line} (hmarker : isKept fence.marker = false)
    (h : fence.closes line = true) : kept line = 0 := by
  have hdrops : forall c, (c == fence.marker) = true -> isKept c = false := by
    intro c hc
    rw [beq_iff_eq.mp hc, hmarker]
  unfold Fence.closes at h
  dsimp only at h
  rw [Bool.and_eq_true] at h
  rw [← kept_trim line, ← kept_dropWhile hdrops, kept_blank h.right]

theorem kept_of_leaf {number : Nat} {block : List Line} {node : Node} {goesOn : Line -> Bool}
    (h : Leaf number block node goesOn) : keptLines block = node.kept := by
  cases h with
  | @fence fence first last body hkind _ hlast =>
      have hopens := LineKind.ofLine?_of_fence hkind
      unfold codeNode
      rw [keptLines_cons, keptLines_append, Node.kept, kept_textOf, kept_joinLines,
        keptLines_map (kept_unindent fence), kept_fence hopens, kept_info, keptLines_cons,
        kept_closes (not_isKept_marker hopens) hlast]
      rfl
  | @heading first title depth hkind =>
      rw [Node.kept, kept_textOf, keptLines_cons, ← kept_trim first,
        kept_heading (LineKind.headingOf?_of_heading hkind)]
      rfl
  | @thematicBreak first hkind =>
      rw [Node.kept, keptLines_cons, ← kept_trim first,
        kept_thematicBreak (LineKind.isThematicBreak_of_thematicBreak hkind)]
      rfl
  | html _ _ =>
      unfold htmlNode
      rw [Node.kept, kept_textOf, kept_joinLines]
  | text _ _ =>
      unfold paragraphNode
      rw [Node.kept, kept_textOf, kept_joinLines, keptLines_map kept_trim]
  | element _ hopening hinline =>
      rw [kept_of_opening hopening, kept_of_inline hinline, Node.kept, Nat.add_assoc]

/-- The nodes hold all the characters of their lines that parsing keeps. -/
theorem kept_of_laid {number : Nat} {block : List Line} {nodes : List Node}
    (h : Laid number block nodes) : keptLines block = Node.keptAll nodes := by
  induction h with
  | nil => rfl
  | blank hblank _ ih => rw [keptLines_cons, kept_blank hblank, ih, Nat.zero_add]
  | leaf hleaf _ _ ih => rw [keptLines_append, kept_of_leaf hleaf, ih, Node.keptAll]
  | @element number first closing tagLines interior rest tag text remainder children nodes hframe
      _ _ ihchildren ihrest =>
      rw [← List.cons_append, keptLines_append, keptLines_append, keptLines_cons closing,
        kept_of_opening hframe.opening, kept_blank hframe.blank, ihchildren, ihrest, Node.keptAll,
        Node.kept, ← kept_trim closing, hframe.closes, hframe.stays, if_neg Bool.false_ne_true]
      omega

end Parser
end LessonPress

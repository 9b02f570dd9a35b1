import LessonPress.Proofs.Document.Enclosures
import LessonPress.Proofs.Document.Levels
import LessonPress.Proofs.Document.Trees

/-!
# Line breaks in tags

## When a tag may be spread over other lines

A tag reads the same with other blanks in it.  The tree stays the same as well, unless the tag
stands inside an element of its own name: the search for the closing line of that element
looks at single lines, so it may count the tag in another way when it is broken.
-/

namespace LessonPress

open Text

namespace Parser

section Relined

variable {tag : Tag} {line first : Line} {more : List Line}
  {indent text other remainder : List Char}
  (h : Relined tag line first more indent text other remainder) (htag : TagLine tag line text)
  (hline : '\n' ∉ line) (hlines : forall next, next ∈ first :: more -> '\n' ∉ next)
include h htag hline hlines

theorem Relined.sameTree_inline {number : Nat} {after : List Line} {children nodes : List Node}
    (hinline : Inline tag remainder number children) (position : Position)
    (hafter : SameTree after nodes) :
    SameTree (first :: (more ++ after)) (.element tag children position :: nodes) := by
  obtain ⟨others, hothers, hsame⟩ := hinline.exists_at (0 + more.length)
  have hleaf : Leaf 0 (first :: more) (.element tag others ⟨0, 0 + more.length⟩) fun _ => false :=
    .element (h.kind_other htag hline) (h.opening_other htag hline hlines) hothers
  refine (hleaf.sameTree_iff (fun _ _ => rfl) ?_).mpr hafter
  rw [Node.unplaced, Node.unplaced, hsame]

theorem Relined.sameTree_frame {closing : Line} {interior rest : List Line}
    {children nodes : List Node} {spelled : List Char}
    (hframe : Frame line [] tag spelled remainder interior closing) (position : Position)
    (hchildren : SameTree interior children) (hrest : SameTree rest nodes) :
    SameTree (first :: (more ++ (interior ++ closing :: rest)))
      (.element tag children position :: nodes) := by
  have hother : Frame first more tag other remainder interior closing :=
    ⟨h.kind_other htag hline, h.opening_other htag hline hlines, hframe.stays, hframe.blank,
      hframe.found, hframe.noFence, hframe.closes⟩
  exact (hother.sameTree_iff position).mpr ⟨hchildren, hrest⟩

/-- An element around the tag keeps its tree if its children do and the search for its closing
line takes the first line of the tag in the same way as before. -/
theorem Relined.sameTree_around {start closing : Line} {tagLines front after rest : List Line}
    {outer : Tag} {spelled behind : List Char} {number : Nat} {children nodes : List Node}
    (hframe : Frame start tagLines outer spelled behind (front ++ line :: after) closing)
    (hchildren : Laid number (front ++ line :: after) children)
    (hblock : forall next, next ∈ front ++ line :: (after ++ closing :: rest) -> '\n' ∉ next)
    (position : Position) :
    SameTree (start :: (tagLines ++ ((front ++ first :: (more ++ after)) ++ closing :: rest)))
        (.element outer children position :: nodes) <->
      (Fence.scan none front = none ->
        opensNested outer.name (trim first) = opensNested outer.name (trim line)) ∧
      SameTree (front ++ first :: (more ++ after)) children ∧ SameTree rest nodes := by
  have hkept : keptLines (front ++ first :: (more ++ after)) = Node.keptAll children := by
    rw [← kept_of_laid hchildren, ← List.cons_append, keptLines_append, keptLines_append,
      h.kept htag hline hlines, keptLines_append, keptLines_cons]
  have hfeeds : forall next, next ∈ (front ++ first :: (more ++ after)) ++ closing :: rest ->
      '\n' ∉ next := by
    intro next hnext
    rw [← List.cons_append, List.append_assoc, List.append_assoc, List.mem_append,
      List.mem_append] at hnext
    rcases hnext with hfront | htagLines | hafter
    · exact hblock next (List.mem_append_left _ hfront)
    · exact hlines next htagLines
    · exact hblock next (List.mem_append_right _ (List.mem_cons_of_mem _ hafter))
  rw [sameTree_element_iff hframe.kind hframe.opening hframe.stays hframe.blank hframe.noFence
    hframe.closes hkept hfeeds, h.found_iff htag hline hframe.found]

theorem Relined.opensNested_eq {outer : String}
    (houter : forall c, c ∈ outer.toList -> isNamePart c = true) (hname : tag.name ≠ outer) :
    opensNested outer (trim first) = opensNested outer (trim line) := by
  rw [(h.opening htag hline).opensNested_other houter hname,
    (h.opening_other htag hline hlines).opensNested_other houter hname]

/-- The search of an element around the tag for its closing line decides by the name of that
element. -/
theorem Relined.searches_iff {document : List Line} {number last : Nat} {start : Line}
    {tagLines front back : List Line} {outer : Tag} {spelled behind : List Char}
    (hopening : Opening start tagLines outer spelled behind)
    (htagLines : StandsAt document number (start :: tagLines))
    (hinside : StandsAt document (number + tagLines.length + 1) (front ++ back))
    (hlast : number + tagLines.length + 1 + front.length < last) (children : List Node) :
    (Document.Searches document tag.name (number + tagLines.length + 1 + front.length)
        (.element outer children ⟨number, last⟩) ->
      opensNested tag.name (trim first) = opensNested tag.name (trim line)) <->
    (Fence.scan none front = none ->
      opensNested outer.name (trim first) = opensNested outer.name (trim line)) := by
  rw [Document.searches_frame_iff hopening htagLines hinside hlast]
  by_cases hname : outer.name = tag.name
  · rw [hname]
    exact ⟨fun hsame hscan => hsame ⟨rfl, hscan⟩, fun hsame hsearches => hsame hsearches.right⟩
  · refine iff_of_true (fun hsearches => absurd hsearches.left hname) fun _ => ?_
    exact h.opensNested_eq htag hline hlines hopening.named (Ne.symm hname)

end Relined

/-!
# Searches that see a tag
-/

section SeenAlike

variable {document : List Line} {tag : Tag} {line first : Line} {n : Nat}

/-- Each search for the name of the tag that comes to its line outside of a fence takes the new
first line as it takes the old one. -/
def SeenAlike (document : List Line) (tag : Tag) (line first : Line) (n : Nat)
    (nodes : List Node) : Prop :=
  forall node, node ∈ Node.walkAll nodes -> Document.Searches document tag.name n node ->
    opensNested tag.name (trim first) = opensNested tag.name (trim line)

theorem seenAlike_cons_iff (node : Node) (nodes : List Node) :
    SeenAlike document tag line first n (node :: nodes) <->
      SeenAlike document tag line first n [node] ∧ SeenAlike document tag line first n nodes := by
  unfold SeenAlike
  rw [← List.forall_mem_append, Node.walkAll, Node.walkAll, Node.walkAll, List.append_nil]

theorem seenAlike_element_iff (outer : Tag) (children : List Node) (position : Position) :
    SeenAlike document tag line first n [.element outer children position] <->
      (Document.Searches document tag.name n (.element outer children position) ->
        opensNested tag.name (trim first) = opensNested tag.name (trim line)) ∧
      SeenAlike document tag line first n children := by
  unfold SeenAlike
  rw [Node.walkAll, Node.walk, Node.walkAll, List.append_nil, List.forall_mem_cons]

theorem seenAlike_of_laid {block : List Line} {number : Nat} {nodes : List Node}
    (h : Laid number block nodes) (hn : n ≤ number ∨ number + block.length ≤ n) :
    SeenAlike document tag line first n nodes :=
  fun _ hnode hsearches => absurd hsearches (Document.not_searches h hn hnode)

end SeenAlike

/-!
# Blocks with a tag
-/

section Relined

variable {tag : Tag} {line first : Line} {more : List Line}
  {indent text other remainder : List Char}
  (h : Relined tag line first more indent text other remainder) (htag : TagLine tag line text)
  (hline : '\n' ∉ line) (hlines : forall next, next ∈ first :: more -> '\n' ∉ next)
include h htag hline hlines

def SameTreeWhere (document : List Line) (tag : Tag) (line first : Line) (more : List Line)
    (number : Nat) (block : List Line) (nodes : List Node) : Prop :=
  forall front after children position, block = front ++ line :: after ->
    .element tag children position ∈ Node.walkAll nodes ->
    position.startLine = number + front.length ->
    (SameTree (front ++ first :: (more ++ after)) nodes <->
      SeenAlike document tag line first (number + front.length) nodes)

omit h htag hline hlines in
theorem sameTreeWhere_blank {document rest : List Line} {number : Nat} {blank : Line}
    {nodes : List Node} (hblank : isBlankLine blank = true) (hrest : Laid (number + 1) rest nodes)
    (ih : SameTreeWhere document tag line first more (number + 1) rest nodes) :
    SameTreeWhere document tag line first more number (blank :: rest) nodes := by
  intro front after children position hplace hmem hstart
  cases front with
  | nil =>
      obtain ⟨count, _, hbehind, _⟩ := hrest.exists_opensAt hmem
      rw [List.length_nil] at hstart
      omega
  | cons head front =>
      obtain ⟨rfl, rfl⟩ := List.cons.inj hplace
      have hnumber : number + (blank :: front).length = number + 1 + front.length := by
        rw [List.length_cons]
        omega
      rw [hnumber] at hstart ⊢
      rw [List.cons_append, sameTree_blank hblank]
      exact ih front after children position rfl hmem hstart

theorem Relined.sameTreeWhere_leaf {document block rest : List Line} {number : Nat} {node : Node}
    {goesOn : Line -> Bool} {nodes : List Node} (hleaf : Leaf number block node goesOn)
    (hgoesOn : forall next, rest.head? = some next -> goesOn next = false)
    (hrest : Laid (number + block.length) rest nodes)
    (ih : SameTreeWhere document tag line first more (number + block.length) rest nodes) :
    SameTreeWhere document tag line first more number (block ++ rest) (node :: nodes) := by
  intro front after children position hplace hmem hstart
  rw [Node.walkAll, List.mem_append] at hmem
  cases hmem with
  | inl hnode =>
      -- the tag is that of this element, so no search comes to it
      obtain ⟨start, tagLines, spelled, behind, rfl, rfl, rfl, _, hopening, hinline⟩ :=
        Document.element_of_leaf hleaf hnode
      dsimp only at hstart
      have hfront : front = [] := List.length_eq_zero_iff.mp (by omega)
      subst hfront
      obtain ⟨rfl, hafter⟩ := List.cons.inj hplace
      obtain ⟨rfl, rfl⟩ := hopening.unique (h.opening htag hline)
      cases hafter
      exact iff_of_true (h.sameTree_inline htag hline hlines hinline _ hrest.sameTree)
        (seenAlike_of_laid (.leaf hleaf hgoesOn hrest) (Or.inl (Nat.le_refl _)))
  | inr hmore =>
      obtain ⟨count, _, hbehind, _⟩ := hrest.exists_opensAt hmore
      obtain ⟨back, rfl, rfl⟩ := exists_behind hplace (by omega)
      have hnumber : number + (block ++ back).length = number + block.length + back.length := by
        rw [List.length_append]
        omega
      have hgoes : forall next, (back ++ first :: (more ++ after)).head? = some next ->
          goesOn next = false := by
        cases back with
        | nil =>
            rintro next ⟨⟩
            rw [hleaf.goesOn_eq htag.kind (h.kind_other htag hline)]
            exact hgoesOn line rfl
        | cons head back => exact hgoesOn
      have hnone : forall next, ([] : List Line).head? = some next -> goesOn next = false := by
        rintro next ⟨⟩
      have halone : Laid number (block ++ []) [node] := .leaf hleaf hnone .nil
      rw [List.append_nil] at halone
      rw [hnumber] at hstart ⊢
      rw [List.append_assoc, hleaf.sameTree_iff hgoes rfl, seenAlike_cons_iff,
        ih back after children position rfl hmore hstart]
      exact (and_iff_right (seenAlike_of_laid halone (Or.inr (Nat.le_add_right _ _)))).symm

section Element

variable {document interior rest : List Line} {start closing : Line} {tagLines : List Line}
  {number : Nat} {outer : Tag} {spelled behind : List Char} {inside nodes : List Node}
  (hframe : Frame start tagLines outer spelled behind interior closing)
  (hinside : Laid (number + tagLines.length + 1) interior inside)
  (hrest : Laid (number + tagLines.length + interior.length + 2) rest nodes)
include hframe hinside

omit h htag hline hlines in
theorem sameTree_iff_behind {back after : List Line} {children : List Node} {position : Position}
    (ih : SameTreeWhere document tag line first more
      (number + tagLines.length + interior.length + 2) rest nodes)
    (hplace : rest = back ++ line :: after)
    (hmem : .element tag children position ∈ Node.walkAll nodes)
    (hstart : position.startLine = number + tagLines.length + interior.length + 2 + back.length) :
    SameTree (start :: (tagLines ++ (interior ++ closing :: (back ++ first :: (more ++ after)))))
        (.element outer inside ⟨number, number + tagLines.length + interior.length + 1⟩ ::
          nodes) <->
      SeenAlike document tag line first
        (number + tagLines.length + interior.length + 2 + back.length)
        (.element outer inside ⟨number, number + tagLines.length + interior.length + 1⟩ ::
          nodes) := by
  have hlength : number + (start :: (tagLines ++ (interior ++ [closing]))).length ≤
      number + tagLines.length + interior.length + 2 + back.length := by
    simp only [List.length_cons, List.length_append, List.length_nil]
    omega
  rw [hframe.sameTree_iff, ih back after children position hplace hmem hstart, seenAlike_cons_iff]
  refine and_congr_left fun _ => iff_of_true hinside.sameTree ?_
  exact seenAlike_of_laid (.element hframe hinside .nil) (Or.inr hlength)

include hrest
variable (hstands : StandsAt document number (start :: (tagLines ++ (interior ++ closing :: rest))))
include hstands

theorem Relined.sameTree_iff_inside {back inner : List Line} {children : List Node}
    {position : Position}
    (hblock : forall next, next ∈ start :: (tagLines ++ (interior ++ closing :: rest)) ->
      '\n' ∉ next)
    (ih : SameTreeWhere document tag line first more (number + tagLines.length + 1) interior inside)
    (hplace : interior = back ++ line :: inner)
    (hmem : .element tag children position ∈ Node.walkAll inside)
    (hstart : position.startLine = number + tagLines.length + 1 + back.length) :
    SameTree (start :: (tagLines ++ ((back ++ first :: (more ++ inner)) ++ closing :: rest)))
        (.element outer inside ⟨number, number + tagLines.length + interior.length + 1⟩ ::
          nodes) <->
      SeenAlike document tag line first (number + tagLines.length + 1 + back.length)
        (.element outer inside ⟨number, number + tagLines.length + interior.length + 1⟩ ::
          nodes) := by
  subst hplace
  obtain ⟨htagLines, hwithin, _, _⟩ := standsAt_frame hstands
  have hfeeds : forall next, next ∈ back ++ line :: (inner ++ closing :: rest) -> '\n' ∉ next := by
    intro next hnext
    apply hblock
    rw [List.append_assoc, List.cons_append]
    exact List.mem_cons_of_mem _ (List.mem_append_right _ hnext)
  have hlast : number + tagLines.length + 1 + back.length <
      number + tagLines.length + (back ++ line :: inner).length + 1 := by
    rw [List.length_append, List.length_cons]
    omega
  have hbehind : SeenAlike document tag line first
      (number + tagLines.length + 1 + back.length) nodes :=
    seenAlike_of_laid hrest (Or.inl (by omega))
  rw [h.sameTree_around htag hline hlines hframe hinside hfeeds,
    ih back inner children position rfl hmem hstart, seenAlike_cons_iff, seenAlike_element_iff,
    h.searches_iff htag hline hlines hframe.opening htagLines hwithin hlast, and_assoc]
  exact and_congr_right fun _ => and_congr_right fun _ =>
    ⟨fun _ => hbehind, fun _ => hrest.sameTree⟩

theorem Relined.sameTreeWhere_element
    (hblock : forall next, next ∈ start :: (tagLines ++ (interior ++ closing :: rest)) ->
      '\n' ∉ next)
    (ihinside : SameTreeWhere document tag line first more (number + tagLines.length + 1) interior
      inside)
    (ihrest : SameTreeWhere document tag line first more
      (number + tagLines.length + interior.length + 2) rest nodes) :
    SameTreeWhere document tag line first more number
      (start :: (tagLines ++ (interior ++ closing :: rest)))
      (.element outer inside ⟨number, number + tagLines.length + interior.length + 1⟩ ::
        nodes) := by
  intro front after children position hplace hmem hstart
  rw [Node.walkAll, Node.walk, List.cons_append, List.mem_cons, List.mem_append] at hmem
  rcases hmem with hself | hchild | hmore
  · -- the tag is that of this element, so no search comes to it
    cases hself
    dsimp only at hstart
    have hfront : front = [] := List.length_eq_zero_iff.mp (by omega)
    subst hfront
    obtain ⟨rfl, hafter⟩ := List.cons.inj hplace
    obtain ⟨rfl, rfl⟩ := hframe.opening.unique (h.opening htag hline)
    cases hafter
    exact iff_of_true
      (h.sameTree_frame htag hline hlines hframe _ hinside.sameTree hrest.sameTree)
      (seenAlike_of_laid (.element hframe hinside hrest) (Or.inl (Nat.le_refl _)))
  · obtain ⟨count, hopens, hplaced, _⟩ := hinside.exists_opensAt hchild
    have hcount := hopens.lt_length
    obtain ⟨back, inner, rfl, hback, rfl⟩ := exists_inside_frame hplace (by omega) (by omega)
    have hnumber : number + (start :: (tagLines ++ back)).length =
        number + tagLines.length + 1 + back.length := by
      rw [List.length_cons, List.length_append]
      omega
    have hshape : start :: (tagLines ++ back) ++ first :: (more ++ (inner ++ closing :: rest)) =
        start :: (tagLines ++ ((back ++ first :: (more ++ inner)) ++ closing :: rest)) := by
      simp
    rw [hnumber] at hstart ⊢
    rw [hshape]
    exact h.sameTree_iff_inside htag hline hlines hframe hinside hrest hstands hblock ihinside
      hback hchild hstart
  · obtain ⟨count, _, hplaced, _⟩ := hrest.exists_opensAt hmore
    obtain ⟨back, rfl, hback⟩ := exists_behind_frame hplace (by omega)
    have hnumber : number + (start :: (tagLines ++ (interior ++ closing :: back))).length =
        number + tagLines.length + interior.length + 2 + back.length := by
      simp only [List.length_cons, List.length_append]
      omega
    have hshape : start :: (tagLines ++ (interior ++ closing :: back)) ++
          first :: (more ++ after) =
        start :: (tagLines ++ (interior ++ closing :: (back ++ first :: (more ++ after)))) := by
      simp
    rw [hnumber] at hstart ⊢
    rw [hshape]
    exact sameTree_iff_behind hframe hinside ihrest hback hmore hstart

end Element

theorem Relined.sameTreeWhere {document block : List Line} {number : Nat} {nodes : List Node}
    (hlaid : Laid number block nodes) (hstands : StandsAt document number block)
    (hblock : forall next, next ∈ block -> '\n' ∉ next) :
    SameTreeWhere document tag line first more number block nodes := by
  induction hlaid with
  | nil =>
      intro front after children position hplace hmem
      rw [Node.walkAll] at hmem
      cases hmem
  | blank hblank hrest ih =>
      exact sameTreeWhere_blank hblank hrest
        (ih hstands.tail fun next hnext => hblock next (List.mem_cons_of_mem _ hnext))
  | leaf hleaf hgoesOn hrest ih =>
      exact h.sameTreeWhere_leaf htag hline hlines hleaf hgoesOn hrest
        (ih hstands.right fun next hnext => hblock next (List.mem_append_right _ hnext))
  | element hframe hinside hrest ihchildren ihrest =>
      obtain ⟨_, hwithin, _, hbehind⟩ := standsAt_frame hstands
      exact h.sameTreeWhere_element htag hline hlines hframe hinside hrest hstands hblock
        (ihchildren hwithin fun next hnext => hblock next (by simp [hnext]))
        (ihrest hbehind fun next hnext => hblock next (by simp [hnext]))

end Relined

end Parser

namespace Document

theorem parses_as_iff {source : String} {values : SortedMap String} {count : Nat}
    (h : Frontmatter.read (linesOf source) = .ok (values, count)) {nodes : List Node} :
    (exists result, parse source = .ok result ∧ result.frontmatter = values ∧
      Node.unplacedAll result.children = Node.unplacedAll nodes) <->
    Parser.SameTree ((linesOf source).drop count) nodes := by
  rw [parse_of_read h, Parser.sameTree_iff (count + 1)]
  cases Parser.parseBlocks (count + 1) ((linesOf source).drop count) with
  | error cause =>
      constructor
      · rintro ⟨_, ⟨⟩, _⟩
      · rintro ⟨_, ⟨⟩, _⟩
  | ok found =>
      constructor
      · rintro ⟨_, ⟨⟩, _, hsame⟩
        exact ⟨found, rfl, hsame⟩
      · rintro ⟨_, ⟨⟩, hsame⟩
        exact ⟨_, rfl, rfl, hsame⟩

theorem not_opens_of_relined {tag : Tag} {line first : Line} {more : List Line}
    {indent text other remainder : List Char}
    (h : Parser.Relined tag line first more indent text other remainder) (hline : '\n' ∉ line) :
    Frontmatter.opens first = false := by
  obtain ⟨back, hfirst, _, _⟩ := h.exists_first hline
  apply Frontmatter.opens_of_head
  rw [hfirst]
  intro hhead
  cases indent with
  | nil => cases hhead
  | cons blank gap =>
      cases hhead
      have hblank := List.all_eq_true.mp h.blank '-' List.mem_cons_self
      exact absurd hblank (by decide)

/-- A text parses to the same tree with other blanks in a tag, line breaks among them, exactly if
each search for its name that comes to the tag outside of a fence takes the new first line in the
same way as the old one. -/
theorem parse_relaid {source relaid : String} {document : Document} {tag : Tag}
    {children : List Node} {position : Position} {front after more : List Line}
    {line first : Line} {indent text other remainder : List Char}
    (hsource : parse source = .ok document)
    (hmem : .element tag children position ∈ Node.walkAll document.children)
    (hlines : linesOf source = front ++ line :: after)
    (hstart : position.startLine = front.length + 1)
    (hrelined : Parser.Relined tag line first more indent text other remainder)
    (hrelaid : linesOf relaid = front ++ first :: (more ++ after)) :
    (exists result, parse relaid = .ok result ∧ result.frontmatter = document.frontmatter ∧
      Node.unplacedAll result.children = Node.unplacedAll document.children) <->
    Parser.SeenAlike (linesOf source) tag line first position.startLine document.children := by
  obtain ⟨count, hread, hlaid⟩ := exists_laid hsource
  obtain ⟨behind, hopens, hplace, _⟩ := hlaid.exists_opensAt hmem
  have hcount : count ≤ front.length := by
    omega
  have hdrop : (linesOf source).drop count = front.drop count ++ line :: after := by
    rw [hlines, List.drop_append_of_le_length hcount]
  have hbehind : behind = (front.drop count).length := by
    rw [List.length_drop]
    omega
  have hline : '\n' ∉ line := by
    apply feed_not_mem_of_mem_linesOf
    rw [hlines]
    simp
  have hfeeds : forall next, next ∈ first :: more -> '\n' ∉ next := by
    intro next hnext
    apply feed_not_mem_of_mem_linesOf
    rw [hrelaid, ← List.cons_append]
    exact List.mem_append_right _ (List.mem_append_left _ hnext)
  rw [hdrop, hbehind] at hopens
  obtain ⟨hkind, _, _, _, hopening⟩ := hopens.exists_opening
  have hreads : Frontmatter.read (linesOf relaid) = .ok (document.frontmatter, count) := by
    rw [hlines] at hread
    rw [hrelaid]
    refine Frontmatter.read_front hread hcount ?_
    rintro _ next ⟨⟩
    exact not_opens_of_relined hrelined hline
  have hstands := Parser.standsAt_drop (Frontmatter.count_le_length hread)
  have hplaced : position.startLine = count + 1 + (front.drop count).length := by
    rw [hplace, hbehind]
  have htree := hrelined.sameTreeWhere (hrelined.tagLine hkind hopening) hline hfeeds hlaid hstands
    (fun next hnext => feed_not_mem_of_mem_linesOf (List.mem_of_mem_drop hnext))
    (front.drop count) after children position hdrop hmem hplaced
  rw [parses_as_iff hreads, hrelaid, List.drop_append_of_le_length hcount, hplaced]
  exact htree

set_option maxRecDepth 10000 in
theorem parse_relaid_selfClosing :
    parse "<A>\n<A x />\n</A>\n" = .ok ⟨.empty, [.element ⟨"A", [], false⟩
      [.element ⟨"A", [⟨"x", .bare⟩], true⟩ [] ⟨2, 2⟩] ⟨1, 3⟩]⟩ ∧
    exists result, parse "<A>\n<A\nx\n/>\n</A>\n" = .ok result ∧ result.frontmatter = .empty ∧
      Node.unplacedAll result.children = Node.unplacedAll [.element ⟨"A", [], false⟩
        [.element ⟨"A", [⟨"x", .bare⟩], true⟩ [] ⟨2, 2⟩] ⟨1, 3⟩] := by
  have hsource : parse "<A>\n<A x />\n</A>\n" = .ok ⟨.empty, [.element ⟨"A", [], false⟩
      [.element ⟨"A", [⟨"x", .bare⟩], true⟩ [] ⟨2, 2⟩] ⟨1, 3⟩]⟩ := by
    cbv
  have hmem : .element ⟨"A", [⟨"x", .bare⟩], true⟩ [] ⟨2, 2⟩ ∈ Node.walkAll
      [.element ⟨"A", [], false⟩ [.element ⟨"A", [⟨"x", .bare⟩], true⟩ [] ⟨2, 2⟩] ⟨1, 3⟩] := by
    simp [Node.walkAll, Node.walk]
  have hlines : linesOf "<A>\n<A x />\n</A>\n" =
      [['<', 'A', '>']] ++ ['<', 'A', ' ', 'x', ' ', '/', '>'] :: [['<', '/', 'A', '>']] := by
    cbv
  have hrelaid : linesOf "<A>\n<A\nx\n/>\n</A>\n" =
      [['<', 'A', '>']] ++ ['<', 'A'] :: ([['x'], ['/', '>']] ++ [['<', '/', 'A', '>']]) := by
    cbv
  have hname : "A".toList = ['A'] := by
    rfl
  have hgap : Tag.Respaced [' '] ['\n'] := ⟨rfl, rfl, by decide⟩
  have hend : Tag.Relaid [' ', '/', '>'] ['\n', '/', '>'] [] true := .selfClosing hgap
  have htag : Tag.Relaid [' ', 'x', ' ', '/', '>'] ['\n', 'x', '\n', '/', '>']
      [⟨"x", .bare⟩] true := by
    have hparts : forall c, c ∈ [] -> isNamePart c = true :=
      fun _ hc => absurd hc List.not_mem_nil
    refine .entry hgap (.bare ⟨'x', [], rfl, by decide +kernel, hparts⟩) ?_ hend
    rintro _ c ⟨⟩
    decide
  have hrelined : Parser.Relined ⟨"A", [⟨"x", .bare⟩], true⟩ ['<', 'A', ' ', 'x', ' ', '/', '>']
      ['<', 'A'] [['x'], ['/', '>']] [] [' ', 'x', ' ', '/', '>'] ['\n', 'x', '\n', '/', '>'] [] :=
    ⟨rfl, htag, by rw [hname]; rfl, by rw [hname]; rfl⟩
  refine ⟨hsource, (parse_relaid hsource hmem hlines rfl hrelined hrelaid).mpr ?_⟩
  intro _ _ _
  cbv

set_option maxRecDepth 10000 in
/-- A line break behind the name of a tag that stays open hides it from the search for the
closing line of the element around it. -/
theorem parse_relaid_failure :
    parse "<A>\n<A x=\"1\">\n</A>\n</A>\n" = .ok ⟨.empty, [.element ⟨"A", [], false⟩
      [.element ⟨"A", [⟨"x", .string "1"⟩], false⟩ [] ⟨2, 3⟩] ⟨1, 4⟩]⟩ ∧
    parse "<A>\n<A\nx=\"1\">\n</A>\n</A>\n" = .error ⟨2, .missingClosing "A"⟩ := by
  constructor
  · cbv
  · cbv

end Document
end LessonPress

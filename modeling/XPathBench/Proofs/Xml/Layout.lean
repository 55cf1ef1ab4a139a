import XPathBench.Proofs.Xml.RoundTrip

/-!
# Laying out

A document that is laid out is written as a document in which blank text stands between the nodes,
and dropping the blank text of that document leaves the one that was laid out.

* `Node.spaced`: a node with a line break before what starts a line
* `layOut_eq_spread`: laying out is writing with spaces
* `dropBlankText_spacedAll`: the spaces are dropped again
-/

namespace XPathBench.Xml

variable {scope : Scope} {above : List Tag} {n : Node} {nodes : List Node}

/-! ## Elements around pieces -/

namespace Tag

variable {t : Tag}

/-- The pieces of an element, by those of the nodes inside it. -/
def wrap (t : Tag) (declarations : List (Option String × String)) : List Piece → List Piece
  | [] => [.single ("<" ++ t.inside declarations ++ "/>")]
  | p :: ps =>
    .opening ("<" ++ t.inside declarations ++ ">") ::
      (p :: ps ++ [.closing ("</" ++ t.name.qualified ++ ">")])

end Tag

theorem pieces_ne_nil (scope : Scope) (n : Node) : n.pieces scope ≠ [] := by
  cases n with
  | element _ children => cases children <;> exact List.cons_ne_nil _ _
  | _ => exact List.cons_ne_nil _ _

theorem pieces_element_eq {tag : Tag} : (Node.element tag nodes).pieces scope =
    tag.wrap (scope.extend tag.needs).2 (piecesOfAll (scope.extend tag.needs).1 nodes) := by
  cases nodes with
  | nil => rfl
  | cons n rest =>
    obtain ⟨p, ps, hp⟩ := List.exists_cons_of_ne_nil (pieces_ne_nil (scope.extend tag.needs).1 n)
    rw [pieces_element, piecesOfAll, hp]
    rfl

/-! ## What is left without blank text -/

theorem isEmptyText_of_not_blank (h : n.isBlankText = false) : n.isEmptyText = false := by
  rw [Bool.eq_false_iff]
  intro hempty
  cases n with
  | text s =>
    obtain rfl : s = "" := beq_iff_eq.mp hempty
    cases h
  | _ => cases hempty

theorem dropBlankText_blank (h : n.isBlankText = true) :
    dropBlankText (n :: nodes) = dropBlankText nodes := by
  rw [dropBlankText, if_pos h]

theorem dropBlankText_cons (h : n.isBlankText = false) :
    dropBlankText (n :: nodes) = n.withoutBlankText :: dropBlankText nodes := by
  rw [dropBlankText, h, if_neg Bool.false_ne_true]

theorem isBlankText_withoutBlankText (n : Node) :
    n.withoutBlankText.isBlankText = n.isBlankText := by
  cases n <;> rfl

theorem isBlankText_content (n : Node) : n.content.isBlankText = n.isBlankText := by
  cases n <;> rfl

theorem isBlankText_reread (n : Node) : (n.reread above).isBlankText = n.isBlankText := by
  cases n <;> rfl

theorem isText_reread (n : Node) : (n.reread above).isText = n.isText := by
  cases n <;> rfl

theorem isBlankText_of_not_text (h : n.isText = false) : n.isBlankText = false := by
  cases n with
  | text => cases h
  | _ => rfl

mutual

theorem Node.withoutBlankText_content :
    (n : Node) → n.content.withoutBlankText = n.withoutBlankText.content
  | .element tag children => by
    rw [Node.content, Node.withoutBlankText, Node.withoutBlankText, Node.content,
      dropBlankText_contentOfAll children]
  | .text _ | .comment _ | .instruction _ _ => rfl

theorem dropBlankText_contentOfAll :
    (nodes : List Node) → dropBlankText (contentOfAll nodes) = contentOfAll (dropBlankText nodes)
  | [] => rfl
  | n :: rest => by
    have ih := dropBlankText_contentOfAll rest
    rw [contentOfAll]
    cases hblank : n.isBlankText with
    | true =>
      rw [dropBlankText_blank hblank]
      split
      · exact ih
      · rw [dropBlankText_blank ((isBlankText_content n).trans hblank), ih]
    | false =>
      have hempty := isEmptyText_of_not_blank ((isBlankText_withoutBlankText n).trans hblank)
      rw [isEmptyText_of_not_blank hblank, if_neg Bool.false_ne_true, dropBlankText_cons hblank,
        dropBlankText_cons ((isBlankText_content n).trans hblank), contentOfAll, hempty,
        if_neg Bool.false_ne_true, ih, Node.withoutBlankText_content n]

end

mutual

theorem Node.withoutBlankText_reread : (above : List Tag) → (n : Node) →
    (n.reread above).withoutBlankText = n.withoutBlankText.reread above
  | above, .element tag children => by
    rw [Node.reread, Node.withoutBlankText, Node.withoutBlankText, Node.reread,
      dropBlankText_rereadAll (tag :: above) children]
  | _, .text _ | _, .comment _ | _, .instruction _ _ => rfl

theorem dropBlankText_rereadAll : (above : List Tag) → (nodes : List Node) →
    dropBlankText (rereadAll above nodes) = rereadAll above (dropBlankText nodes)
  | _, [] => rfl
  | above, n :: rest => by
    have ih := dropBlankText_rereadAll above rest
    rw [rereadAll]
    cases hblank : n.isBlankText with
    | true =>
      rw [dropBlankText_blank hblank]
      split
      · exact ih
      · rw [dropBlankText_blank ((isBlankText_reread n).trans hblank), ih]
    | false =>
      have hempty := isEmptyText_of_not_blank ((isBlankText_withoutBlankText n).trans hblank)
      rw [isEmptyText_of_not_blank hblank, if_neg Bool.false_ne_true, dropBlankText_cons hblank,
        dropBlankText_cons ((isBlankText_reread n).trans hblank), rereadAll, hempty,
        if_neg Bool.false_ne_true, ih, Node.withoutBlankText_reread above n]

end

mutual

theorem Node.withoutBlankText_idem :
    (n : Node) → n.withoutBlankText.withoutBlankText = n.withoutBlankText
  | .element tag children => by
    rw [Node.withoutBlankText, Node.withoutBlankText, dropBlankText_idem children]
  | .text _ | .comment _ | .instruction _ _ => rfl

theorem dropBlankText_idem :
    (nodes : List Node) → dropBlankText (dropBlankText nodes) = dropBlankText nodes
  | [] => rfl
  | n :: rest => by
    cases hblank : n.isBlankText with
    | true => rw [dropBlankText_blank hblank, dropBlankText_idem rest]
    | false =>
      rw [dropBlankText_cons hblank,
        dropBlankText_cons ((isBlankText_withoutBlankText n).trans hblank),
        Node.withoutBlankText_idem n, dropBlankText_idem rest]

end

/-- Where no text stands, only the inside of the nodes can change. -/
theorem dropBlankText_eq_map (h : ∀ n ∈ nodes, n.isText = false) :
    dropBlankText nodes = nodes.map Node.withoutBlankText := by
  induction nodes with
  | nil => rfl
  | cons n rest ih =>
    rw [List.forall_mem_cons] at h
    rw [dropBlankText_cons (isBlankText_of_not_text h.1), ih h.2, List.map_cons]

mutual

theorem Node.pieces_content : (scope : Scope) → (n : Node) →
    n.withoutBlankText.content.pieces scope = n.withoutBlankText.pieces scope
  | scope, .element tag children => by
    rw [Node.withoutBlankText, Node.content, pieces_element_eq, pieces_element_eq]
    exact congrArg (tag.wrap _) (piecesOfAll_contentOfAll _ children)
  | _, .text _ | _, .comment _ | _, .instruction _ _ => rfl

/-- Without blank text, nodes are written by their content. -/
theorem piecesOfAll_contentOfAll : (scope : Scope) → (nodes : List Node) →
    piecesOfAll scope (contentOfAll (dropBlankText nodes)) = piecesOfAll scope (dropBlankText nodes)
  | _, [] => rfl
  | scope, n :: rest => by
    have ih := piecesOfAll_contentOfAll scope rest
    cases hblank : n.isBlankText with
    | true => rw [dropBlankText_blank hblank, ih]
    | false =>
      have hempty := isEmptyText_of_not_blank ((isBlankText_withoutBlankText n).trans hblank)
      rw [dropBlankText_cons hblank, contentOfAll, hempty, if_neg Bool.false_ne_true, piecesOfAll,
        piecesOfAll, Node.pieces_content scope n, ih]

end

/-! ## Line breaks -/

/-- A line break as text, where one may stand. -/
def lineBreak (margin : Nat → String) (depth : Nat) (breaks : Bool) : List Node :=
  if breaks then [.text ("\n" ++ margin depth)] else []

mutual

/-- A node at a depth with line breaks inside. -/
def Node.spaced (margin : Nat → String) (depth : Nat) : Node → Node
  | .element tag [] => .element tag []
  | .element tag (child :: rest) =>
    .element tag (spacedAll margin (depth + 1) true (child :: rest))
  | n => n

/-- The nodes in an element with line breaks before them, and before the end tag. There are none
next to text. -/
def spacedAll (margin : Nat → String) (depth : Nat) (breaks : Bool) : List Node → List Node
  | [] => lineBreak margin (depth - 1) breaks
  | n :: rest =>
    if n.isText then n :: spacedAll margin depth false rest
    else lineBreak margin depth breaks ++ n.spaced margin depth :: spacedAll margin depth true rest

end

theorem spaced_element {margin : Nat → String} {depth : Nat} {tag : Tag} (h : nodes ≠ []) :
    (Node.element tag nodes).spaced margin depth =
      .element tag (spacedAll margin (depth + 1) true nodes) := by
  cases nodes with
  | nil => exact absurd rfl h
  | cons => rfl

theorem isText_spaced (margin : Nat → String) (depth : Nat) (n : Node) :
    (n.spaced margin depth).isText = n.isText := by
  rcases n with ⟨_, _ | _⟩ | _ | _ | _ <;> rfl

theorem isBlankText_spaced (margin : Nat → String) (depth : Nat) (n : Node) :
    (n.spaced margin depth).isBlankText = n.isBlankText := by
  rcases n with ⟨_, _ | _⟩ | _ | _ | _ <;> rfl

section Margin

variable {margin : Nat → String} {depth : Nat} {breaks : Bool}

theorem spacedAll_text (h : n.isText = true) : spacedAll margin depth breaks (n :: nodes) =
    n :: spacedAll margin depth false nodes := by
  rw [spacedAll, if_pos h]

theorem spacedAll_cons (h : n.isText = false) : spacedAll margin depth breaks (n :: nodes) =
    lineBreak margin depth breaks ++
      n.spaced margin depth :: spacedAll margin depth true nodes := by
  rw [spacedAll, h, if_neg Bool.false_ne_true]

theorem spacedAll_ne_nil (margin : Nat → String) (depth : Nat) (breaks : Bool) (h : nodes ≠ []) :
    spacedAll margin depth breaks nodes ≠ [] := by
  cases nodes with
  | nil => exact absurd rfl h
  | cons n rest =>
    cases ht : n.isText with
    | true => simp [spacedAll_text ht]
    | false => simp [spacedAll_cons ht]

/-- Margins consist of blanks. -/
def BlankMargin (margin : Nat → String) : Prop :=
  ∀ depth, ∀ c ∈ (margin depth).toList, Text.isXmlBlank c = true

theorem isXmlBlank_of_mem_line (hmargin : BlankMargin margin) {c : Char}
    (hc : c ∈ ("\n" ++ margin depth).toList) :
    Text.isXmlBlank c = true := by
  rw [String.toList_append] at hc
  rcases List.mem_append.mp hc with hc | hc
  · obtain rfl := List.mem_singleton.mp hc
    rfl
  · exact hmargin depth c hc

/-! ## Line breaks are dropped again -/

theorem dropBlankText_lineBreak (hmargin : BlankMargin margin) :
    dropBlankText (lineBreak margin depth breaks ++ nodes) = dropBlankText nodes := by
  cases breaks with
  | false => rfl
  | true =>
    refine dropBlankText_blank (List.all_eq_true.mpr fun c hc => ?_)
    exact Text.isBlank_of_isXmlBlank (isXmlBlank_of_mem_line hmargin hc)

mutual

theorem Node.withoutBlankText_spaced (hmargin : BlankMargin margin) : (n : Node) → (depth : Nat) →
    (n.spaced margin depth).withoutBlankText = n.withoutBlankText
  | .element _ [], _ => rfl
  | .element tag (child :: rest), depth => by
    rw [Node.spaced, Node.withoutBlankText, Node.withoutBlankText,
      dropBlankText_spacedAll hmargin (child :: rest)]
  | .text _, _ | .comment _, _ | .instruction _ _, _ => rfl

/-- Line breaks between nodes are blank text. -/
theorem dropBlankText_spacedAll (hmargin : BlankMargin margin) :
    (nodes : List Node) → (depth : Nat) → (breaks : Bool) →
      dropBlankText (spacedAll margin depth breaks nodes) = dropBlankText nodes
  | [], depth, breaks => by
    rw [spacedAll, ← List.append_nil (lineBreak margin (depth - 1) breaks),
      dropBlankText_lineBreak hmargin]
  | n :: rest, depth, breaks => by
    have ih := dropBlankText_spacedAll hmargin rest depth
    cases ht : n.isText with
    | true => rw [spacedAll_text ht, dropBlankText, dropBlankText, ih]
    | false =>
      rw [spacedAll_cons ht, dropBlankText_lineBreak hmargin, dropBlankText, dropBlankText,
        isBlankText_spaced, Node.withoutBlankText_spaced hmargin n depth, ih]

end

/-! ## Laying out pieces -/

theorem pieceChars_lineBreak (hmargin : BlankMargin margin) :
    pieceChars (piecesOfAll scope (lineBreak margin depth breaks)) =
      (Piece.layOutFrom.lineStart margin depth breaks).toList := by
  cases breaks with
  | false => rfl
  | true =>
    have hplain : ∀ c ∈ ("\n" ++ margin depth).toList, isPlainInText c = true := fun c hc =>
      Text.of_isXmlBlank (p := fun c => isPlainInText c = true) (by decide)
        (isXmlBlank_of_mem_line hmargin hc)
    have hescape := escapes_text.flatMap_plain hplain
    calc pieceChars (piecesOfAll scope [.text ("\n" ++ margin depth)])
        = ("\n" ++ margin depth).toList.flatMap escapeTextChar := by
          simp [piecesOfAll, Node.pieces, pieceChars, Piece.content, escapeText]
      _ = _ := hescape

theorem pieceChars_spacedAll_cons (hmargin : BlankMargin margin) (h : n.isText = false) :
    pieceChars (piecesOfAll scope (spacedAll margin depth breaks (n :: nodes))) =
      (Piece.layOutFrom.lineStart margin depth breaks).toList ++
        (pieceChars ((n.spaced margin depth).pieces scope) ++
          pieceChars (piecesOfAll scope (spacedAll margin depth true nodes))) := by
  have happend {first : List Node} : piecesOfAll scope (first ++ (n.spaced margin depth ::
      spacedAll margin depth true nodes)) = piecesOfAll scope first ++
        ((n.spaced margin depth).pieces scope ++
          piecesOfAll scope (spacedAll margin depth true nodes)) := by
    induction first with
    | nil => rfl
    | cons m first ih => rw [List.cons_append, piecesOfAll, ih, piecesOfAll, List.append_assoc]
  rw [spacedAll_cons h, happend, pieceChars_append, pieceChars_append,
    pieceChars_lineBreak hmargin]

mutual

theorem layOutFrom_pieces (hmargin : BlankMargin margin) : (n : Node) → n.isText = false →
    (scope : Scope) → (depth : Nat) → (breaks : Bool) → (rest : List Piece) →
    (Piece.layOutFrom margin depth breaks (n.pieces scope ++ rest)).toList =
      (Piece.layOutFrom.lineStart margin depth breaks).toList ++
        (pieceChars ((n.spaced margin depth).pieces scope) ++
          (Piece.layOutFrom margin depth true rest).toList)
  | .element tag [], _, scope, depth, breaks, rest => by
    simp [pieces_leaf, Node.spaced, Piece.layOutFrom, pieceChars, Piece.content]
  | .element tag (child :: children), _, scope, depth, breaks, rest => by
    have ih := layOutFrom_children hmargin (child :: children) (scope.extend tag.needs).1 depth true
      ("</" ++ tag.name.qualified ++ ">") rest
    obtain ⟨m, ms, hspaced⟩ := List.exists_cons_of_ne_nil
      (spacedAll_ne_nil margin (depth + 1) true (List.cons_ne_nil child children))
    rw [Node.spaced, hspaced, pieces_element, pieces_element, ← hspaced, List.cons_append,
      Piece.layOutFrom, List.append_assoc, String.toList_append, String.toList_append,
      List.singleton_append, ih]
    simp [pieceChars, Piece.content]
  | .comment _, _, _, _, _, _ | .instruction _ _, _, _, _, _, _ => by
    simp [Node.pieces, Node.spaced, Piece.layOutFrom, pieceChars, Piece.content]

theorem layOutFrom_children (hmargin : BlankMargin margin) : (nodes : List Node) →
    (scope : Scope) → (depth : Nat) → (breaks : Bool) → (closing : String) →
    (rest : List Piece) →
    (Piece.layOutFrom margin (depth + 1) breaks
        (piecesOfAll scope nodes ++ .closing closing :: rest)).toList =
      pieceChars (piecesOfAll scope (spacedAll margin (depth + 1) breaks nodes)) ++
        (closing.toList ++ (Piece.layOutFrom margin depth true rest).toList)
  | [], scope, depth, breaks, closing, rest => by
    rw [spacedAll, pieceChars_lineBreak hmargin]
    simp [piecesOfAll, Piece.layOutFrom]
  | n :: nodes, scope, depth, breaks, closing, rest => by
    have ih := layOutFrom_children hmargin nodes scope depth
    cases ht : n.isText with
    | false =>
      rw [piecesOfAll, List.append_assoc, layOutFrom_pieces hmargin n ht, ih,
        pieceChars_spacedAll_cons hmargin ht]
      simp
    | true =>
      cases n with
      | text s =>
        rw [spacedAll_text ht, piecesOfAll, piecesOfAll, List.append_assoc, pieceChars_append]
        simp [Node.pieces, Piece.layOutFrom, ih, pieceChars, Piece.content]
      | _ => cases ht

end

/-- Laying out nodes is writing them with line breaks inside and between them. -/
theorem layOutFrom_eq_spread (hmargin : BlankMargin margin) (h : ∀ n ∈ nodes, n.isText = false) :
    (Piece.layOutFrom margin 0 breaks (piecesOfAll [] nodes)).toList =
      spread (Piece.layOutFrom.lineStart margin 0 breaks).toList ("\n" ++ margin 0).toList
        (nodes.map fun n => n.spaced margin 0) := by
  induction nodes generalizing breaks with
  | nil => rfl
  | cons n rest ih =>
    rw [List.forall_mem_cons] at h
    rw [piecesOfAll, layOutFrom_pieces hmargin n h.1, ih h.2]
    rfl

theorem layOut_eq_spread (hmargin : BlankMargin margin) (h : ∀ n ∈ nodes, n.isText = false) :
    Piece.layOut margin (piecesOfAll [] nodes) = String.ofList (spread []
      ("\n" ++ margin 0).toList (nodes.map fun n => n.spaced margin 0)) := by
  rw [← String.toList_inj, String.toList_ofList]
  exact layOutFrom_eq_spread hmargin h

/-! ## Documents with line breaks inside -/

theorem allProper_append {more : List Node} :
    AllProper (nodes ++ more) ↔ AllProper nodes ∧ AllProper more := by
  simp [allProper_iff, or_imp, forall_and]

theorem allProper_lineBreak : AllProper (lineBreak margin depth breaks) := by
  cases breaks with
  | false => trivial
  | true => exact ⟨trivial, trivial⟩

mutual

theorem Node.Proper.spaced : {n : Node} → n.Proper → (depth : Nat) →
    (n.spaced margin depth).Proper
  | .element _ [], h, _ => h
  | .element _ (_ :: _), h, depth => ⟨h.1, AllProper.spacedAll h.2 (depth + 1) true⟩
  | .text _, h, _ | .comment _, h, _ | .instruction _ _, h, _ => h

theorem AllProper.spacedAll : {nodes : List Node} → AllProper nodes → (depth : Nat) →
    (breaks : Bool) → AllProper (spacedAll margin depth breaks nodes)
  | [], _, _, _ => allProper_lineBreak
  | n :: rest, h, depth, breaks => by
    rw [Xml.spacedAll]
    split
    · exact ⟨h.1, AllProper.spacedAll h.2 depth false⟩
    · exact allProper_append.mpr ⟨allProper_lineBreak, h.1.spaced depth,
        AllProper.spacedAll h.2 depth true⟩

end

theorem noTextAhead_spacedAll (h : NoTextAhead nodes) :
    NoTextAhead (spacedAll margin depth false nodes) := by
  cases nodes with
  | nil => exact noTextAhead_nil
  | cons n rest =>
    rw [noTextAhead_cons] at h
    rw [spacedAll_cons h]
    exact noTextAhead_cons.mpr ((isText_spaced margin depth n).trans h)

theorem allApart_lineBreak_cons (hn : n.isText = false) (happart : n.Apart)
    (hrest : AllApart nodes) : AllApart (lineBreak margin depth breaks ++ n :: nodes) := by
  have h : AllApart (n :: nodes) := ⟨happart, fun ht => absurd ht (by rw [hn]; decide), hrest⟩
  cases breaks with
  | false => exact h
  | true => exact ⟨trivial, fun _ => noTextAhead_cons.mpr hn, h⟩

mutual

theorem Node.Apart.spaced : {n : Node} → n.Apart → (depth : Nat) → (n.spaced margin depth).Apart
  | .element _ [], h, _ => h
  | .element _ (_ :: _), h, depth => AllApart.spacedAll h (depth + 1) true
  | .text _, h, _ | .comment _, h, _ | .instruction _ _, h, _ => h

/-- A line break stands neither before nor behind text. -/
theorem AllApart.spacedAll : {nodes : List Node} → AllApart nodes → (depth : Nat) →
    (breaks : Bool) → AllApart (spacedAll margin depth breaks nodes)
  | [], _, _, breaks => by
    cases breaks with
    | false => trivial
    | true => exact ⟨trivial, fun _ => noTextAhead_nil, trivial⟩
  | n :: rest, h, depth, breaks => by
    cases ht : n.isText with
    | true =>
      rw [spacedAll_text ht]
      exact ⟨h.1, fun _ => noTextAhead_spacedAll (h.2.1 ht), AllApart.spacedAll h.2.2 depth false⟩
    | false =>
      rw [spacedAll_cons ht]
      exact allApart_lineBreak_cons ((isText_spaced margin depth n).trans ht) (h.1.spaced depth)
        (AllApart.spacedAll h.2.2 depth true)

end

theorem keepsKind_spaced : KeepsKind fun n => n.spaced margin depth where
  element
    | _, [] => ⟨_, rfl⟩
    | _, _ :: _ => ⟨_, rfl⟩
  misc n hn := by cases n <;> first | rfl | cases hn

theorem Document.Proper.map_spaced {d : Document} (h : d.Proper) (margin : Nat → String)
    (depth : Nat) : Document.Proper ⟨d.children.map fun n => n.spaced margin depth⟩ :=
  h.map keepsKind_spaced (fun hn => hn.spaced depth) (fun hn => hn.spaced depth)

theorem dropBlankText_map_spaced (hmargin : BlankMargin margin) :
    dropBlankText (nodes.map fun n => n.spaced margin depth) = dropBlankText nodes := by
  induction nodes with
  | nil => rfl
  | cons n rest ih =>
    rw [List.map_cons, dropBlankText, dropBlankText, isBlankText_spaced,
      Node.withoutBlankText_spaced hmargin n depth, ih]

/-! ## Line breaks and reading again -/

theorem rereadAll_lineBreak : rereadAll above (lineBreak margin depth breaks ++ nodes) =
    lineBreak margin depth breaks ++ rereadAll above nodes := by
  cases breaks with
  | false => rfl
  | true =>
    have hne : (Node.text ("\n" ++ margin depth)).isEmptyText = false := by
      refine Bool.eq_false_iff.mpr fun h => ?_
      have hlist := congrArg String.toList (beq_iff_eq.mp h)
      rw [String.toList_append] at hlist
      cases hlist
    show rereadAll above (.text ("\n" ++ margin depth) :: nodes) = _
    rw [rereadAll, hne, if_neg Bool.false_ne_true]
    rfl

theorem rereadAll_cons (h : n.isBlankText = false) :
    rereadAll above (n :: nodes) = n.reread above :: rereadAll above nodes := by
  rw [rereadAll, isEmptyText_of_not_blank h, if_neg Bool.false_ne_true]

theorem rereadAll_dropBlankText_ne_nil (h : dropBlankText nodes ≠ []) :
    rereadAll above (dropBlankText nodes) ≠ [] := by
  induction nodes with
  | nil => exact absurd rfl h
  | cons n rest ih =>
    cases hblank : n.isBlankText with
    | true =>
      rw [dropBlankText_blank hblank] at h ⊢
      exact ih h
    | false =>
      rw [dropBlankText_cons hblank,
        rereadAll_cons ((isBlankText_withoutBlankText n).trans hblank)]
      exact List.cons_ne_nil _ _

mutual

theorem Node.spaced_reread : (n : Node) → (above : List Tag) → (depth : Nat) →
    (n.withoutBlankText.reread above).spaced margin depth =
      (n.withoutBlankText.spaced margin depth).reread above
  | .element tag children, above, depth => by
    have ih := spacedAll_rereadAll children (tag :: above) (depth + 1) true
    rw [Node.withoutBlankText, Node.reread]
    by_cases hnil : dropBlankText children = []
    · rw [hnil]
      rfl
    · rw [spaced_element hnil, Node.reread, ← ih, spaced_element]
      exact rereadAll_dropBlankText_ne_nil hnil
  | .text _, _, _ | .comment _, _, _ | .instruction _ _, _, _ => rfl

/-- Where no text is blank, line breaks may be put before or after reading again. -/
theorem spacedAll_rereadAll : (nodes : List Node) → (above : List Tag) → (depth : Nat) →
    (breaks : Bool) → spacedAll margin depth breaks (rereadAll above (dropBlankText nodes)) =
      rereadAll above (spacedAll margin depth breaks (dropBlankText nodes))
  | [], above, depth, breaks => by
    show lineBreak margin (depth - 1) breaks = rereadAll above (lineBreak margin (depth - 1) breaks)
    rw [← List.append_nil (lineBreak margin (depth - 1) breaks), rereadAll_lineBreak]
    rfl
  | n :: rest, above, depth, breaks => by
    have ih := spacedAll_rereadAll rest above depth
    cases hblank : n.isBlankText with
    | true => rw [dropBlankText_blank hblank, ih]
    | false =>
      have hblank' := (isBlankText_withoutBlankText n).trans hblank
      rw [dropBlankText_cons hblank, rereadAll_cons hblank']
      cases ht : n.withoutBlankText.isText with
      | true =>
        rw [spacedAll_text ht, spacedAll_text ((isText_reread _).trans ht), ih,
          rereadAll_cons hblank']
      | false =>
        rw [spacedAll_cons ht, spacedAll_cons ((isText_reread _).trans ht), ih,
          rereadAll_lineBreak, rereadAll_cons ((isBlankText_spaced margin depth _).trans hblank'),
          Node.spaced_reread n above depth]

end

theorem map_spaced_rereadAll (h : ∀ n ∈ nodes, n.isText = false) :
    (rereadAll above (dropBlankText nodes)).map (fun n => n.spaced margin depth) =
      rereadAll above ((dropBlankText nodes).map fun n => n.spaced margin depth) := by
  induction nodes with
  | nil => rfl
  | cons n rest ih =>
    rw [List.forall_mem_cons] at h
    have hblank := isBlankText_of_not_text h.1
    have hblank' := (isBlankText_withoutBlankText n).trans hblank
    rw [dropBlankText_cons hblank, rereadAll_cons hblank', List.map_cons, List.map_cons,
      rereadAll_cons ((isBlankText_spaced margin depth _).trans hblank'), ih h.2,
      Node.spaced_reread n above depth]

/-! ## Documents laid out and read again -/

theorem Document.Proper.pretty_eq {d : Document} (h : d.Proper) :
    d.pretty margin = Piece.layOut margin (piecesOfAll [] (dropBlankText d.children)) := by
  rw [Document.pretty, dropBlankText_eq_map h.oneElement.isText]

theorem Document.Proper.dropBlankText {d : Document} (h : d.Proper) :
    Document.Proper ⟨Xml.dropBlankText d.children⟩ := by
  rw [dropBlankText_eq_map h.oneElement.isText]
  exact h.map_withoutBlankText

/-- A document that is laid out is read again, with its line breaks as text. -/
theorem parse_pretty (hmargin : BlankMargin margin) {d : Document} (h : d.Proper) :
    ∃ d', Document.parse (d.pretty margin) = .ok d' ∧ contentOfAll d'.children =
      rereadAll [] ((dropBlankText d.children).map fun n => n.spaced margin 0) := by
  have hdropped := h.dropBlankText
  obtain ⟨d', hparse, hcontent⟩ := parse_spread (hdropped.map_spaced margin 0)
    fun c hc => isXmlBlank_of_mem_line hmargin hc
  refine ⟨d', ?_, hcontent⟩
  rw [h.pretty_eq, layOut_eq_spread hmargin hdropped.oneElement.isText]
  exact hparse

/-- What is read from a document that was laid out is laid out as the nodes that they are read as.
-/
theorem pretty_of_content (hmargin : BlankMargin margin) {d' : Document} (h : d'.Proper)
    (hcontent : contentOfAll d'.children =
      rereadAll [] ((dropBlankText nodes).map fun n => n.spaced margin 0)) :
    d'.pretty margin =
      Piece.layOut margin (piecesOfAll [] (rereadAll [] (dropBlankText nodes))) := by
  rw [h.pretty_eq, ← piecesOfAll_contentOfAll, ← dropBlankText_contentOfAll, hcontent,
    dropBlankText_rereadAll, dropBlankText_map_spaced hmargin, dropBlankText_idem]

end Margin

end XPathBench.Xml

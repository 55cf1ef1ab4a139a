import XPathBench.Proofs.Xml.Layout

/-!
# Prose

The text of a document that is not blank, under the elements that it stands in. Laying a document
out and reading it again keeps its prose, and the prose is found in what is written.

* `Prose`, `proseOfAll`: prose, for characters that count as blanks
* `proseOfAll_rereadAll`, `proseOfAll_spacedAll`, `proseOfAll_dropBlankText`: what keeps it
* `Piece.Frames`: a text that stands between tags
* `frames_piecesOfAll`: texts that are written do
-/

namespace XPathBench.Xml

/-- Text under the elements that it stands in. An element is known by its name as it was written. -/
inductive Prose where
  | element (prefixName : Option String) (localName : String) (inside : List Prose)
  | text (value : String)

mutual

/-- The prose of a node, with the characters that count as blanks: text of blanks is none. -/
def Node.prose (blank : Char → Bool) : Node → List Prose
  | .element tag children =>
    [.element tag.name.prefixName tag.name.localName (proseOfAll blank children)]
  | .text value => if value.toList.all blank then [] else [.text value]
  | .comment _ => []
  | .instruction _ _ => []

/-- The prose of nodes, one after the other. -/
def proseOfAll (blank : Char → Bool) : List Node → List Prose
  | [] => []
  | n :: rest => n.prose blank ++ proseOfAll blank rest

end

variable {blank : Char → Bool} {n : Node} {nodes : List Node}

theorem prose_of_isEmptyText (h : n.isEmptyText = true) : n.prose blank = [] := by
  cases n with
  | text s =>
    obtain rfl : s = "" := beq_iff_eq.mp h
    rfl
  | _ => cases h

mutual

theorem Node.prose_content : (n : Node) → n.content.prose blank = n.prose blank
  | .element tag children => by
    rw [Node.content, Node.prose, Node.prose, proseOfAll_contentOfAll children]
  | .text _ | .comment _ | .instruction _ _ => rfl

theorem proseOfAll_contentOfAll :
    (nodes : List Node) → proseOfAll blank (contentOfAll nodes) = proseOfAll blank nodes
  | [] => rfl
  | n :: rest => by
    rw [contentOfAll, proseOfAll]
    split
    · next hempty => rw [prose_of_isEmptyText hempty, proseOfAll_contentOfAll rest, List.nil_append]
    · rw [proseOfAll, Node.prose_content n, proseOfAll_contentOfAll rest]

end

mutual

theorem Node.prose_reread : (above : List Tag) → (n : Node) →
    (n.reread above).prose blank = n.prose blank
  | above, .element tag children => by
    rw [Node.reread, Node.prose, Node.prose, proseOfAll_rereadAll (tag :: above) children]
    rfl
  | _, .text _ | _, .comment _ | _, .instruction _ _ => rfl

/-- Reading again keeps the written names of elements, and all text. -/
theorem proseOfAll_rereadAll : (above : List Tag) → (nodes : List Node) →
    proseOfAll blank (rereadAll above nodes) = proseOfAll blank nodes
  | _, [] => rfl
  | above, n :: rest => by
    rw [rereadAll, proseOfAll]
    split
    · next hempty =>
      rw [prose_of_isEmptyText hempty, proseOfAll_rereadAll above rest, List.nil_append]
    · rw [proseOfAll, Node.prose_reread above n, proseOfAll_rereadAll above rest]

end

section Margin

variable {margin : Nat → String}

theorem proseOfAll_lineBreak (hmargin : BlankMargin margin)
    (hblank : ∀ c, Text.isXmlBlank c = true → blank c = true) {depth : Nat} {breaks : Bool} :
    proseOfAll blank (lineBreak margin depth breaks ++ nodes) = proseOfAll blank nodes := by
  cases breaks with
  | false => rfl
  | true =>
    have hline : ("\n" ++ margin depth).toList.all blank = true :=
      List.all_eq_true.mpr fun c hc => hblank c (isXmlBlank_of_mem_line hmargin hc)
    show Node.prose blank (.text ("\n" ++ margin depth)) ++ proseOfAll blank nodes = _
    rw [Node.prose, if_pos hline, List.nil_append]

mutual

theorem Node.prose_spaced (hmargin : BlankMargin margin)
    (hblank : ∀ c, Text.isXmlBlank c = true → blank c = true) : (n : Node) → (depth : Nat) →
    (n.spaced margin depth).prose blank = n.prose blank
  | .element _ [], _ => rfl
  | .element tag (child :: rest), depth => by
    rw [Node.spaced, Node.prose, Node.prose, proseOfAll_spacedAll hmargin hblank (child :: rest)]
  | .text _, _ | .comment _, _ | .instruction _ _, _ => rfl

/-- Line breaks between nodes are no prose. -/
theorem proseOfAll_spacedAll (hmargin : BlankMargin margin)
    (hblank : ∀ c, Text.isXmlBlank c = true → blank c = true) :
    (nodes : List Node) → (depth : Nat) → (breaks : Bool) →
      proseOfAll blank (spacedAll margin depth breaks nodes) = proseOfAll blank nodes
  | [], depth, breaks => by
    rw [spacedAll, ← List.append_nil (lineBreak margin (depth - 1) breaks),
      proseOfAll_lineBreak hmargin hblank]
  | n :: rest, depth, breaks => by
    have ih := proseOfAll_spacedAll hmargin hblank rest depth
    cases ht : n.isText with
    | true => rw [spacedAll_text ht, proseOfAll, proseOfAll, ih]
    | false =>
      rw [spacedAll_cons ht, proseOfAll_lineBreak hmargin hblank, proseOfAll, proseOfAll, ih,
        Node.prose_spaced hmargin hblank n depth]

end

theorem proseOfAll_map_spaced (hmargin : BlankMargin margin)
    (hblank : ∀ c, Text.isXmlBlank c = true → blank c = true) (depth : Nat) :
    proseOfAll blank (nodes.map fun n => n.spaced margin depth) = proseOfAll blank nodes := by
  induction nodes with
  | nil => rfl
  | cons n rest ih =>
    rw [List.map_cons, proseOfAll, proseOfAll, ih, Node.prose_spaced hmargin hblank]

end Margin

mutual

theorem Node.prose_withoutBlankText (hblank : ∀ c, blank c = true → Text.isBlank c = true) :
    (n : Node) → n.isBlankText = false → n.withoutBlankText.prose blank = n.prose Text.isBlank
  | .element tag children, _ => by
    rw [Node.withoutBlankText, Node.prose, Node.prose, proseOfAll_dropBlankText hblank children]
  | .text s, h => by
    have hprose : ¬ s.toList.all Text.isBlank = true := Bool.eq_false_iff.mp h
    have hmore : ¬ s.toList.all blank = true := fun hall =>
      hprose (List.all_eq_true.mpr fun c hc => hblank c (List.all_eq_true.mp hall c hc))
    show Node.prose blank (.text s) = Node.prose Text.isBlank (.text s)
    rw [Node.prose, Node.prose, if_neg hmore, if_neg hprose]
  | .comment _, _ | .instruction _ _, _ => rfl

/-- Dropping blank text leaves the text that is not blank, whatever else counts as blanks behind it.
-/
theorem proseOfAll_dropBlankText (hblank : ∀ c, blank c = true → Text.isBlank c = true) :
    (nodes : List Node) →
      proseOfAll blank (dropBlankText nodes) = proseOfAll Text.isBlank nodes
  | [] => rfl
  | n :: rest => by
    have ih := proseOfAll_dropBlankText hblank rest
    cases h : n.isBlankText with
    | true =>
      have hnone : n.prose Text.isBlank = [] := by
        cases n with
        | text s => exact if_pos h
        | _ => cases h
      rw [dropBlankText_blank h, proseOfAll, hnone, List.nil_append, ih]
    | false =>
      rw [dropBlankText_cons h, proseOfAll, proseOfAll, ih, Node.prose_withoutBlankText hblank n h]

end

/-- What is read from a document that was laid out has the prose of the document, whichever
characters count as blanks there: those of XML, and perhaps others that are white space. -/
theorem proseOfAll_of_content {margin : Nat → String} (hmargin : BlankMargin margin)
    (hxml : ∀ c, Text.isXmlBlank c = true → blank c = true)
    (hblank : ∀ c, blank c = true → Text.isBlank c = true) {read : List Node}
    (h : contentOfAll read = rereadAll []
      ((dropBlankText nodes).map fun n => n.spaced margin 0)) :
    proseOfAll blank read = proseOfAll Text.isBlank nodes := by
  rw [← proseOfAll_contentOfAll, h, proseOfAll_rereadAll, proseOfAll_map_spaced hmargin hxml,
    proseOfAll_dropBlankText hblank]

/-! ## Text between tags -/

mutual

/-- The texts in a node. -/
def Node.texts : Node → List String
  | .element _ children => textsOfAll children
  | .text value => [value]
  | .comment _ => []
  | .instruction _ _ => []

/-- The texts in nodes, one after the other. -/
def textsOfAll : List Node → List String
  | [] => []
  | n :: rest => n.texts ++ textsOfAll rest

end

mutual

theorem Node.mem_texts_withoutBlankText {s : String} (hs : Text.allBlank s = false) :
    (n : Node) → s ∈ n.texts → s ∈ n.withoutBlankText.texts
  | .element tag children, h => by
    exact mem_textsOfAll_dropBlankText hs children h
  | .text _, h => h
  | .comment _, h | .instruction _ _, h => h

theorem mem_textsOfAll_dropBlankText {s : String} (hs : Text.allBlank s = false) :
    (nodes : List Node) → s ∈ textsOfAll nodes → s ∈ textsOfAll (dropBlankText nodes)
  | [], h => h
  | n :: rest, h => by
    cases hblank : n.isBlankText with
    | true =>
      rw [dropBlankText_blank hblank]
      rcases List.mem_append.mp h with h | h
      · cases n with
        | text s' =>
          obtain rfl := List.mem_singleton.mp h
          exact absurd hblank (by rw [Node.isBlankText, hs]; decide)
        | _ => cases hblank
      · exact mem_textsOfAll_dropBlankText hs rest h
    | false =>
      rw [dropBlankText_cons hblank]
      rcases List.mem_append.mp h with h | h
      · exact List.mem_append_left _ (Node.mem_texts_withoutBlankText hs n h)
      · exact List.mem_append_right _ (mem_textsOfAll_dropBlankText hs rest h)

end

namespace Piece

/-- The piece is a tag, a comment or a processing instruction. -/
def IsTag (p : Piece) : Prop := (∀ s, p ≠ .text s) ∧ ∃ inside, p.content = "<" ++ inside ++ ">"

/-- A text stands between two tags in a list of pieces. -/
def Frames (s : String) (ps : List Piece) : Prop :=
  ∃ before x y behind, ps = before ++ x :: .text s :: y :: behind ∧ x.IsTag ∧ y.IsTag

variable {s : String} {ps : List Piece}

theorem Frames.append (h : Frames s ps) (before behind : List Piece) :
    Frames s (before ++ ps ++ behind) := by
  obtain ⟨before', x, y, behind', rfl, hx, hy⟩ := h
  exact ⟨before ++ before', x, y, behind' ++ behind, by simp, hx, hy⟩

end Piece

open Piece (Frames IsTag)

theorem isTag_single {text : String} (inside : String) (h : text = "<" ++ inside ++ ">") :
    IsTag (.single text) :=
  ⟨nofun, inside, h⟩

theorem isTag_empty (inside : String) : IsTag (.single ("<" ++ inside ++ "/>")) :=
  isTag_single (inside ++ "/") (by simp [← String.toList_inj])

theorem isTag_opening (inside : String) : IsTag (.opening ("<" ++ inside ++ ">")) :=
  ⟨nofun, inside, rfl⟩

theorem isTag_closing (name : String) : IsTag (.closing ("</" ++ name ++ ">")) :=
  ⟨nofun, "/" ++ name, by simp [Piece.content, ← String.toList_inj]⟩

theorem isTag_comment (s : String) : IsTag (.single (commentMarkup s)) :=
  isTag_single ("!--" ++ s ++ "--") (by simp [commentMarkup, ← String.toList_inj])

theorem isTag_instruction (target : String) (value : Option String) :
    IsTag (.single (instructionMarkup target value)) := by
  cases value with
  | none =>
    refine isTag_single ("?" ++ target ++ "?") ?_
    simp [instructionMarkup, ← String.toList_inj]
  | some value =>
    refine isTag_single ("?" ++ target ++ " " ++ value ++ "?") ?_
    simp [instructionMarkup, ← String.toList_inj]

/-- What is not text is written from a tag to a tag. -/
theorem exists_pieces_eq (h : n.isText = false) (scope : Scope) :
    (∃ x ps, n.pieces scope = x :: ps ∧ x.IsTag) ∧
      ∃ ps x, n.pieces scope = ps ++ [x] ∧ x.IsTag := by
  cases n with
  | text => cases h
  | comment s => exact ⟨⟨_, [], rfl, isTag_comment s⟩, [], _, rfl, isTag_comment s⟩
  | instruction target value =>
    exact ⟨⟨_, [], rfl, isTag_instruction target value⟩, [], _, rfl, isTag_instruction target value⟩
  | element tag children =>
    cases children with
    | nil => exact ⟨⟨_, [], rfl, isTag_empty _⟩, [], _, rfl, isTag_empty _⟩
    | cons child rest =>
      rw [pieces_element]
      exact ⟨⟨_, _, rfl, isTag_opening _⟩, _ :: _, _, rfl, isTag_closing _⟩

/-- Where no text comes next, a tag does. -/
theorem exists_tag_behind (h : NoTextAhead nodes) (scope : Scope) {y : Piece} (hy : y.IsTag) :
    ∃ z ps, piecesOfAll scope nodes ++ [y] = z :: ps ∧ z.IsTag := by
  cases nodes with
  | nil => exact ⟨y, [], rfl, hy⟩
  | cons n rest =>
    obtain ⟨⟨z, ps, hps, hz⟩, -⟩ := exists_pieces_eq (noTextAhead_cons.mp h) scope
    exact ⟨z, ps ++ (piecesOfAll scope rest ++ [y]), by rw [piecesOfAll, hps]; simp, hz⟩

variable {s : String}

mutual

theorem Node.frames_pieces : (n : Node) → n.isText = false → n.Apart → (scope : Scope) →
    s ∈ n.texts → Frames (escapeText s) (n.pieces scope)
  | .element _ [], _, _, _, h => nomatch h
  | .element tag (child :: rest), _, happart, scope, h => by
    rw [pieces_element]
    exact frames_piecesOfAll (child :: rest) happart _ [_] _
      (.inr ⟨[], _, rfl, isTag_opening _⟩) (isTag_closing _) h
  | .comment _, _, _, _, h | .instruction _ _, _, _, _, h => nomatch h

/-- Texts that are written stand between tags, if the nodes do: `front` is what is written before
them, and it may end in text only if no text comes next. -/
theorem frames_piecesOfAll : (nodes : List Node) → AllApart nodes → (scope : Scope) →
    (front : List Piece) → (y : Piece) →
    (NoTextAhead nodes ∨ ∃ before x, front = before ++ [x] ∧ x.IsTag) → y.IsTag →
    s ∈ textsOfAll nodes → Frames (escapeText s) (front ++ (piecesOfAll scope nodes ++ [y]))
  | [], _, _, _, _, _, _, h => nomatch h
  | n :: rest, happart, scope, front, y, hfront, hy, h => by
    have ih := frames_piecesOfAll rest happart.2.2 scope
    rw [piecesOfAll, List.append_assoc]
    cases ht : n.isText with
    | false =>
      rcases List.mem_append.mp h with h | h
      · rw [← List.append_assoc]
        exact (Node.frames_pieces n ht happart.1 scope h).append _ _
      · obtain ⟨-, ps, x, hps, hx⟩ := exists_pieces_eq ht scope
        have := ih (front ++ n.pieces scope) y
          (.inr ⟨front ++ ps, x, by rw [hps, List.append_assoc], hx⟩) hy h
        rwa [List.append_assoc] at this
    | true =>
      cases n with
      | text t =>
        rcases List.mem_append.mp h with h | h
        · obtain rfl := List.mem_singleton.mp h
          obtain hahead | ⟨before, x, rfl, hx⟩ := hfront
          · exact absurd (noTextAhead_cons.mp hahead) (by rw [ht]; decide)
          · obtain ⟨z, ps, hz, htag⟩ := exists_tag_behind (happart.2.1 ht) scope hy
            exact ⟨before, x, z, ps, by rw [hz, List.append_assoc]; rfl, hx, htag⟩
        · have := ih (front ++ [.text (escapeText t)]) y (.inl (happart.2.1 ht)) hy h
          rwa [List.append_assoc] at this
      | _ => cases ht

end

theorem frames_of_not_text (htext : ∀ n ∈ nodes, n.isText = false) (happart : AllApart nodes)
    (scope : Scope) (h : s ∈ textsOfAll nodes) :
    Frames (escapeText s) (piecesOfAll scope nodes) := by
  induction nodes with
  | nil => cases h
  | cons n rest ih =>
    rw [List.forall_mem_cons] at htext
    rw [piecesOfAll]
    rcases List.mem_append.mp h with h | h
    · exact (Node.frames_pieces n htext.1 happart.1 scope h).append [] _
    · rw [← List.append_nil (_ ++ _)]
      exact (ih htext.2 happart.2.2 h).append _ []

/-! ## Text as it is laid out -/

namespace Piece

variable {margin : Nat → String}

/-- A piece is laid out at the start of a line or directly behind the one before. Nothing stands
before text, nor behind it. -/
theorem layOutFrom_cons (p : Piece) (ps : List Piece) (depth : Nat) (breaks : Bool) :
    ∃ start depth' breaks', layOutFrom margin depth breaks (p :: ps) =
        start ++ p.content ++ layOutFrom margin depth' breaks' ps ∧
      (breaks = false → start = "") ∧ ∀ t, p = .text t → start = "" ∧ breaks' = false := by
  have hstart (depth : Nat) : breaks = false → layOutFrom.lineStart margin depth breaks = "" := by
    rintro rfl
    rfl
  cases p with
  | opening t => exact ⟨_, _, _, rfl, hstart depth, nofun⟩
  | closing t => exact ⟨_, _, _, rfl, hstart (depth - 1), nofun⟩
  | single t => exact ⟨_, _, _, rfl, hstart depth, nofun⟩
  | text t =>
    refine ⟨"", depth, false, ?_, fun _ => rfl, fun _ _ => ⟨rfl, rfl⟩⟩
    rw [String.empty_append]
    rfl

theorem exists_suffix_layOutFrom (front ps : List Piece) (depth : Nat) (breaks : Bool) :
    ∃ depth' breaks', (layOutFrom margin depth' breaks' ps).toList <:+
      (layOutFrom margin depth breaks (front ++ ps)).toList := by
  induction front generalizing depth breaks with
  | nil => exact ⟨depth, breaks, List.suffix_rfl⟩
  | cons p front ih =>
    obtain ⟨start, depth', breaks', h, -⟩ := layOutFrom_cons p (front ++ ps) depth breaks
    obtain ⟨depth'', breaks'', hsuffix⟩ := ih depth' breaks'
    refine ⟨depth'', breaks'', hsuffix.trans ?_⟩
    rw [List.cons_append, h, String.toList_append]
    exact List.suffix_append _ _

/-- A text between tags is laid out directly between them. -/
theorem Frames.infix_layOut {s : String} {ps : List Piece} (h : Frames s ps) :
    '>' :: (s.toList ++ ['<']) <:+: (layOut margin ps).toList := by
  obtain ⟨front, x, y, behind, rfl, ⟨-, inside, hx⟩, -, inside', hy⟩ := h
  obtain ⟨depth, breaks, hsuffix⟩ :=
    exists_suffix_layOutFrom front (x :: .text s :: y :: behind) 0 false
  obtain ⟨start, depth, breaks, hfirst, -⟩ :=
    layOutFrom_cons x (.text s :: y :: behind) depth breaks
  obtain ⟨_, depth, _, hsecond, -, htext⟩ := layOutFrom_cons (.text s) (y :: behind) depth breaks
  obtain ⟨rfl, rfl⟩ := htext s rfl
  obtain ⟨_, depth, breaks, hthird, hnone, -⟩ := layOutFrom_cons y behind depth false
  obtain rfl := hnone rfl
  refine List.IsInfix.trans ?_ hsuffix.isInfix
  rw [hfirst, hsecond, hthird, hx, hy]
  refine ⟨(start ++ "<" ++ inside).toList,
    (inside' ++ ">" ++ layOutFrom margin depth breaks behind).toList, ?_⟩
  simp [Piece.content]

end Piece

end XPathBench.Xml

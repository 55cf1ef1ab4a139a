import XPathBench.Proofs.Xml.Reopening

/-!
# Reading what was written

Nodes that were read are written as a text that is read again, and what is read are the nodes with
their names read as foreseen.

* `reads_text`: escaped text is read as parts of it
* `reads_children`: the nodes in an element
* `parse_spread`: the nodes at top level, with blanks between them
-/

namespace XPathBench.Xml

open Reader Grammar

variable {above : List Tag} {a : Assembly} {r : Region} {rest t u : List Char} {n : Node}
  {nodes : List Node}

/-! ## Pieces one after the other -/

/-- The characters of pieces put one after the other. -/
def pieceChars (pieces : List Piece) : List Char := pieces.flatMap fun p => p.content.toList

theorem raw_toList {pieces : List Piece} : (Piece.raw pieces).toList = pieceChars pieces := by
  simp [Piece.raw, pieceChars, List.flatMap_map]

theorem pieceChars_append {ps qs : List Piece} :
    pieceChars (ps ++ qs) = pieceChars ps ++ pieceChars qs := List.flatMap_append

theorem pieceChars_leaf {tag : Tag} (ht : tag.Proper) :
    pieceChars ((Node.element tag []).pieces (scopeIn above)) =
      startTagText tag.name.written (tag.said (tag.declarations above)) true := by
  rw [pieces_leaf, ← leaf_toList ht]
  exact List.append_nil _

theorem pieceChars_element {tag : Tag} {child : Node} (ht : tag.Proper) :
    pieceChars ((Node.element tag (child :: nodes)).pieces (scopeIn above)) =
      startTagText tag.name.written (tag.said (tag.declarations above)) false ++
        (pieceChars (piecesOfAll (scopeIn (tag :: above)) (child :: nodes)) ++
          endTagText tag.name.written) := by
  rw [pieces_element, ← opening_toList ht, ← closing_toList ht]
  show _ ++ pieceChars (_ ++ [Piece.closing _]) = _
  rw [pieceChars_append]
  exact congrArg (fun text => _ ++ (_ ++ text)) (List.append_nil _)

theorem pieceChars_text {s : String} : pieceChars ((Node.text s).pieces (scopeIn above)) =
    s.toList.flatMap escapeTextChar := by
  simp [Node.pieces, pieceChars, Piece.content, escapeText]

theorem pieceChars_comment {s : String} :
    pieceChars ((Node.comment s).pieces (scopeIn above)) = (commentMarkup s).toList :=
  List.append_nil _

theorem pieceChars_instruction {target : String} {value : Option String} :
    pieceChars ((Node.instruction target value).pieces (scopeIn above)) =
      (instructionMarkup target value).toList :=
  List.append_nil _

/-- All but text is written in brackets. -/
theorem pieceChars_head (above : List Tag) (hn : n.Proper) (ht : n.isText = false) :
    ∃ v, pieceChars (n.pieces (scopeIn above)) = '<' :: v := by
  cases n with
  | element tag children =>
    cases children with
    | nil => exact ⟨_, by rw [pieceChars_leaf hn.1]; rfl⟩
    | cons child children => exact ⟨_, by rw [pieceChars_element hn.1]; rfl⟩
  | text s => cases ht
  | comment s => exact ⟨_, by rw [pieceChars_comment, commentMarkup_toList]; rfl⟩
  | instruction target value =>
    exact ⟨_, by rw [pieceChars_instruction, instructionMarkup_toList]; rfl⟩

theorem pieceChars_cons : pieceChars (piecesOfAll (scopeIn above) (n :: nodes)) =
    pieceChars (n.pieces (scopeIn above)) ++ pieceChars (piecesOfAll (scopeIn above) nodes) :=
  pieceChars_append

/-- Behind text a bracket follows: of the next node, or of the end tag around. -/
theorem pieceChars_noTextAhead (above : List Tag) (hproper : AllProper nodes)
    (h : NoTextAhead nodes) (u : List Char) :
    ∃ v, pieceChars (piecesOfAll (scopeIn above) nodes) ++ '<' :: u = '<' :: v := by
  cases nodes with
  | nil => exact ⟨u, rfl⟩
  | cons n rest =>
    obtain ⟨v, hv⟩ := pieceChars_head above hproper.1 (noTextAhead_cons.mp h)
    exact ⟨_, by rw [pieceChars_cons, hv]; rfl⟩

/-! ## Regions around an element -/

/-- The region inside an element. -/
def Grammar.Region.inside : Region → Region
  | .content depth => .content (depth + 1)
  | _ => .content 0

/-- The region behind an element. -/
def Grammar.Region.behind : Region → Region
  | .content depth => .content depth
  | _ => .epilog

theorem after_opening {tag : StartTag} :
    r.after (.opening tag) = if tag.selfClosing then r.behind else r.inside := by
  cases r <;> rfl

theorem after_closing {name : PrefixedName} {place : Nat} :
    r.inside.after (.closing name place) = r.behind := by
  cases r <;> rfl

/-! ## Open elements while nodes are added -/

theorem Agrees.put {m : Node} (h : Agrees above a.enclosing) :
    Agrees above (a.put m).enclosing := by
  obtain ⟨enclosing, complete⟩ := a
  cases enclosing with
  | nil => exact h
  | cons e outer => exact ⟨⟨fun h => (List.cons_ne_nil _ _ h).elim, fun h' => (List.cons_ne_nil _ _
      (h.top.mpr h')).elim⟩, h.inherited, h.bound⟩

theorem Agrees.putAll (h : Agrees above a.enclosing) (ms : List Node) :
    Agrees above (a.putAll ms).enclosing := by
  induction ms generalizing a with
  | nil => exact h
  | cons m ms ih => exact ih h.put

/-! ## Text -/

theorem after_text {depth : Nat} {value : String} :
    Region.after (.content depth) (.text value) = .content depth := by
  cases depth <;> rfl

theorem after_reference {depth place : Nat} {value : Reference} :
    Region.after (.content depth) (.reference value place) = .content depth := by
  cases depth <;> rfl

/-- Escaped text is read as parts that make it up. -/
theorem reads_text (depth : Nat) (a : Assembly) (u v : List Char) : ∃ parts : List String,
    Reads (.content depth) a (v.flatMap escapeTextChar ++ '<' :: u) (.content depth)
      (a.putAll (parts.map .text)) ('<' :: u) ∧ String.join parts = String.ofList v := by
  induction v using runs_induction isPlainInText generalizing a with
  | nil => exact ⟨[], .refl, rfl⟩
  | other c v hc ih =>
    obtain ⟨name, hname, hescape⟩ := escapes_text.byName c hc
    obtain ⟨place, hfinds⟩ := finds_pieceIn_reference (isName_of_mem_namedCharacters hname) depth
      (v.flatMap escapeTextChar ++ '<' :: u)
    obtain ⟨parts, hreads, hparts⟩ := ih (a.put (.text c.toString))
    have htext : (c :: v).flatMap escapeTextChar ++ '<' :: u =
        '&' :: (name.toList ++ ';' :: (v.flatMap escapeTextChar ++ '<' :: u)) := by
      simp [List.flatMap_cons, hescape]
    have hadd : a.add (.reference (.named name) place) = .ok (a.put (.text c.toString)) := by
      rw [Assembly.add, resolve_named hname]
      rfl
    refine ⟨c.toString :: parts, ?_, ?_⟩
    · rw [htext]
      exact .next hfinds hadd after_reference hreads
    · rw [String.join_cons, hparts, ← String.toList_inj]
      simp
  | run w v hne hw hv ih =>
    obtain ⟨parts, hreads, hparts⟩ := ih (a.put (.text (String.ofList w)))
    obtain ⟨d, u', hd, hu⟩ : ∃ d u', (d = '<' ∨ d = '&') ∧
        v.flatMap escapeTextChar ++ '<' :: u = d :: u' := by
      rcases escapes_text.head_flatMap hv with rfl | ⟨u', hu⟩
      · exact ⟨'<', u, .inl rfl, rfl⟩
      · exact ⟨'&', _, .inr rfl, by rw [hu, List.cons_append]⟩
    refine ⟨String.ofList w :: parts, ?_, ?_⟩
    · rw [List.flatMap_append, escapes_text.flatMap_plain hw, List.append_assoc, hu]
      rw [hu] at hreads
      exact .next (finds_pieceIn_characters hne hw hd) rfl after_text hreads
    · rw [String.join_cons, hparts, ← String.toList_inj]
      simp

theorem noTextAhead_rereadAll (h : NoTextAhead nodes) : NoTextAhead (rereadAll above nodes) := by
  cases nodes with
  | nil => exact noTextAhead_nil
  | cons n rest =>
    cases n with
    | text => cases noTextAhead_cons.mp h
    | _ => exact noTextAhead_cons.mpr rfl

/-- Text in front of others is what it was, or nothing if it is empty. -/
theorem joinNode_text_rereadAll {s : String} (h : NoTextAhead nodes) :
    joinNode (.text s) (rereadAll above nodes) = rereadAll above (.text s :: nodes) := by
  rw [joinNode, rereadAll, prependNode_of_noTextAhead fun _ => noTextAhead_rereadAll h]
  rfl

/-! ## Nodes -/

/-- A written start tag is read wherever one may stand. -/
theorem finds_pieceIn_said {tag : Tag} {start : StartTag} {selfClosing : Bool}
    {declarations : List (Option String × String)} (ht : tag.Proper) (hr : r ≠ .epilog)
    (h : startTag.Finds (startTagText tag.name.written (tag.said declarations) selfClosing ++ rest)
      (.opening start) rest) :
    (pieceIn r).Finds (startTagText tag.name.written (tag.said declarations) selfClosing ++ rest)
      (.opening start) rest := by
  obtain ⟨c, v, hname, hc⟩ := ht.name.valid.exists_cons
  rw [startTagText, hname] at h ⊢
  exact finds_pieceIn_startTag hc hr h

/-- A written start tag opens an element, or puts one without children, wherever one may stand. -/
theorem exists_opening {tag : Tag} (habove : ∀ t ∈ above, t.Proper) (ht : tag.Proper)
    (hr : r ≠ .epilog) (hagrees : Agrees above a.enclosing) (selfClosing : Bool)
    (rest : List Char) : ∃ start e,
      (pieceIn r).Finds
        (startTagText tag.name.written (tag.said (tag.declarations above)) selfClosing ++ rest)
        (.opening start) rest ∧
      a.add (.opening start) = .ok
        (if selfClosing then a.put (.element e.tag []) else ⟨e :: a.enclosing, a.complete⟩) ∧
      r.after (.opening start) = (if selfClosing then r.behind else r.inside) ∧
      e.written = tag.name.written ∧ { e.tag with bindings := [] } = tag.reread above ∧
      e.children = [] ∧ Agrees (tag :: above) (e :: a.enclosing) := by
  obtain ⟨start, hfinds, hsay⟩ := finds_startTag_said ht (scopeIn above) selfClosing rest
  obtain ⟨e, hresolve, hopened⟩ := resolve_said habove ht hagrees hsay
  refine ⟨start, e, finds_pieceIn_said ht hr hfinds, ?_, ?_, hopened⟩
  · rw [Assembly.add, hresolve, ← hsay.selfClosing_eq]
    cases start.selfClosing <;> rfl
  · rw [after_opening, hsay.selfClosing_eq]

/-- A node that is not text is read in front of those behind it. -/
theorem reads_cons {depth : Nat} {m : Node} {u : List Char} (hn : n.isText = false)
    (hread : Reads (.content depth) a
      (pieceChars (n.pieces (scopeIn above)) ++
        (pieceChars (piecesOfAll (scopeIn above) nodes) ++ '<' :: u))
      (.content depth) (a.put m) (pieceChars (piecesOfAll (scopeIn above) nodes) ++ '<' :: u))
    (hm : m.settled = n.reread above)
    (hrest : ∃ ms, Reads (.content depth) (a.put m)
        (pieceChars (piecesOfAll (scopeIn above) nodes) ++ '<' :: u)
        (.content depth) ((a.put m).putAll ms) ('<' :: u) ∧
      settleAll ms = rereadAll above nodes) :
    ∃ ms, Reads (.content depth) a
        (pieceChars (piecesOfAll (scopeIn above) (n :: nodes)) ++ '<' :: u)
        (.content depth) (a.putAll ms) ('<' :: u) ∧
      settleAll ms = rereadAll above (n :: nodes) := by
  obtain ⟨ms, hreads, hms⟩ := hrest
  refine ⟨m :: ms, ?_, ?_⟩
  · rw [pieceChars_cons, List.append_assoc]
    exact hread.trans hreads
  · rw [settleAll, hm, hms]
    cases n with
    | text => cases hn
    | _ => exact joinNode_of_not_text rfl

mutual

/-- An element that is written inside others is read wherever an element may stand. -/
theorem reads_element : {above : List Tag} → (∀ t ∈ above, t.Proper) → {tag : Tag} →
    {children : List Node} → (Node.element tag children).Proper →
    (Node.element tag children).Apart → {r : Region} → r ≠ .epilog → {a : Assembly} →
    Agrees above a.enclosing → (rest : List Char) → ∃ m,
      Reads r a (pieceChars ((Node.element tag children).pieces (scopeIn above)) ++ rest) r.behind
        (a.put m) rest ∧ m.settled = (Node.element tag children).reread above
  | above, habove, tag, [], hproper, _, r, hr, a, hagrees, rest => by
    obtain ⟨start, e, hfinds, hadd, hafter, _, htag, _⟩ :=
      exists_opening habove hproper.1 hr hagrees true rest
    rw [pieceChars_leaf hproper.1]
    refine ⟨.element e.tag [], .single hfinds hadd hafter, ?_⟩
    rw [Node.settled, htag]
    rfl
  | above, habove, tag, child :: children, hproper, hapart, r, hr, a, hagrees, rest => by
    let inner := pieceChars (piecesOfAll (scopeIn (tag :: above)) (child :: children))
    obtain ⟨start, e, hfinds, hadd, hafter, hwritten, htag, hnone, hagrees'⟩ :=
      exists_opening habove hproper.1 hr hagrees false
        (inner ++ (endTagText tag.name.written ++ rest))
    obtain ⟨depth, hdepth⟩ : ∃ depth, r.inside = .content depth := by
      cases r <;> exact ⟨_, rfl⟩
    obtain ⟨ms, hreads, hms⟩ := reads_children (List.forall_mem_cons.mpr ⟨hproper.1, habove⟩)
      hproper.2 hapart depth (a := ⟨e :: a.enclosing, a.complete⟩) hagrees'
      ('/' :: (tag.name.written.text.toList ++ ['>'] ++ rest))
    obtain ⟨place, hend⟩ := finds_endTag hproper.1.name.valid rest
    have hclose : (Assembly.putAll ⟨e :: a.enclosing, a.complete⟩ ms).close tag.name.written place =
        .ok (a.put (.element e.tag ms)) := hwritten ▸ Assembly.close_putAll hnone
    have htext :
        pieceChars ((Node.element tag (child :: children)).pieces (scopeIn above)) ++ rest =
        startTagText tag.name.written (tag.said (tag.declarations above)) false ++
          (inner ++ (endTagText tag.name.written ++ rest)) := by
      rw [pieceChars_element hproper.1]
      simp [inner]
    rw [htext]
    refine ⟨.element e.tag ms, .next hfinds hadd (hafter.trans hdepth)
      (.trans hreads (.single (finds_pieceIn_endTag hend) hclose ?_)), ?_⟩
    · rw [← hdepth]
      exact after_closing
    · rw [Node.settled, htag, hms]
      rfl
termination_by _ _ _ children => (sizeOf children, 1)

/-- The nodes in an element are read up to its end tag. -/
theorem reads_children : {above : List Tag} → (∀ t ∈ above, t.Proper) → {nodes : List Node} →
    AllProper nodes → AllApart nodes → (depth : Nat) → {a : Assembly} →
    Agrees above a.enclosing → (u : List Char) → ∃ ms,
      Reads (.content depth) a (pieceChars (piecesOfAll (scopeIn above) nodes) ++ '<' :: u)
        (.content depth) (a.putAll ms) ('<' :: u) ∧ settleAll ms = rereadAll above nodes
  | _, _, [], _, _, _, _, _, _ => ⟨[], .refl, rfl⟩
  | above, habove, .element tag children :: rest, hproper, hapart, depth, a, hagrees, u => by
    obtain ⟨m, hreads, hm⟩ := reads_element habove hproper.1 hapart.1 (r := .content depth)
      (by simp) hagrees (pieceChars (piecesOfAll (scopeIn above) rest) ++ '<' :: u)
    exact reads_cons rfl hreads hm (reads_children habove hproper.2 hapart.2.2 depth hagrees.put u)
  | above, habove, .text s :: rest, hproper, hapart, depth, a, hagrees, u => by
    obtain ⟨u', hu⟩ := pieceChars_noTextAhead above hproper.2 (hapart.2.1 rfl) u
    obtain ⟨parts, hreads, hparts⟩ := reads_text depth a u' s.toList
    obtain ⟨ms, hreads', hms⟩ := reads_children habove hproper.2 hapart.2.2 depth
      (hagrees.putAll (parts.map .text)) u
    rw [String.ofList_toList] at hparts
    refine ⟨parts.map .text ++ ms, ?_, ?_⟩
    · rw [pieceChars_cons, List.append_assoc, hu, pieceChars_text, Assembly.putAll_append]
      exact hreads.trans (hu ▸ hreads')
    · rw [settleAll_texts, hparts, hms]
      exact joinNode_text_rereadAll (hapart.2.1 rfl)
  | above, habove, .comment s :: rest, hproper, hapart, depth, a, hagrees, u => by
    refine reads_cons (m := .comment s) rfl ?_ rfl
      (reads_children habove hproper.2 hapart.2.2 depth hagrees.put u)
    rw [pieceChars_comment]
    exact .single (finds_pieceIn_comment hproper.1) rfl after_comment
  | above, habove, .instruction target value :: rest, hproper, hapart, depth, a, hagrees, u => by
    refine reads_cons (m := .instruction target value) rfl ?_ rfl
      (reads_children habove hproper.2 hapart.2.2 depth hagrees.put u)
    rw [pieceChars_instruction]
    exact .single (finds_pieceIn_instruction hproper.1) rfl after_instruction
termination_by _ _ nodes => (sizeOf nodes, 0)

end

/-! ## Top level -/

/-- Nodes with some characters before the first of them and others before every later one. -/
def spread (first sep : List Char) : List Node → List Char
  | [] => []
  | n :: rest => first ++ (pieceChars (n.pieces []) ++ spread sep sep rest)

theorem spread_nil : spread [] [] nodes = pieceChars (piecesOfAll [] nodes) := by
  induction nodes with
  | nil => rfl
  | cons n rest ih => rw [spread, ih, List.nil_append, ← pieceChars_append]; rfl

section TopLevel

variable {first sep : List Char}

theorem past_eq (h : r.past = .prolog ∨ r.past = .epilog) :
    (∀ depth, r ≠ .content depth) ∧ r.past.past = r.past ∧ (r.after .gap).past = r.past := by
  cases r with
  | content depth => simp [Region.past] at h
  | _ => exact ⟨nofun, rfl, rfl⟩

/-- Blanks before a bracket are passed over. -/
theorem reads_gap (h : r.past = .prolog ∨ r.past = .epilog)
    (hfirst : ∀ c ∈ first, Text.isXmlBlank c = true) :
    ∃ r', r'.past = r.past ∧ Reads r a (first ++ '<' :: u) r' a ('<' :: u) := by
  obtain ⟨hcontent, _, hgap⟩ := past_eq h
  by_cases hne : first = []
  · subst hne
    exact ⟨r, rfl, .refl⟩
  · have hbracket : NotAhead Text.isXmlBlank ('<' :: u) := notAhead_cons.mpr rfl
    exact ⟨r.after .gap, hgap, .single (finds_pieceIn_gap hcontent hne hfirst hbracket) rfl rfl⟩

/-- Comments and instructions outside the top element. -/
theorem reads_misc (h : r.past = .prolog ∨ r.past = .epilog) (hproper : n.Proper)
    (hn : n.isMisc = true) (hfirst : ∀ c ∈ first, Text.isXmlBlank c = true) :
    Reads r a (first ++ (pieceChars (n.pieces []) ++ rest)) r.past (a.put n) rest := by
  have htext : n.isText = false := by cases n <;> first | rfl | cases hn
  obtain ⟨v, hv⟩ := pieceChars_head [] hproper htext
  obtain ⟨r', hr', hreads⟩ := reads_gap (a := a) (u := v ++ rest) h hfirst
  rw [← List.cons_append, ← hv] at hreads
  refine hreads.trans ?_
  cases n with
  | comment s =>
    rw [← hr', pieceChars_comment]
    exact .single (finds_pieceIn_comment hproper) rfl after_comment
  | instruction target value =>
    rw [← hr', pieceChars_instruction]
    exact .single (finds_pieceIn_instruction hproper) rfl after_instruction
  | _ => cases hn

theorem reads_allMisc (h : r.past = .prolog ∨ r.past = .epilog) (hproper : AllProper nodes)
    (hmisc : ∀ n ∈ nodes, n.isMisc = true) (hfirst : ∀ c ∈ first, Text.isXmlBlank c = true)
    (hsep : ∀ c ∈ sep, Text.isXmlBlank c = true) :
    ∃ r', r'.past = r.past ∧ Reads r a (spread first sep nodes) r' (a.putAll nodes) [] := by
  induction nodes generalizing r a first with
  | nil => exact ⟨r, rfl, .refl⟩
  | cons n rest ih =>
    have hpast := (past_eq h).2.1
    rw [List.forall_mem_cons] at hmisc
    obtain ⟨r', hr', hreads⟩ := ih (r := r.past) (a := a.put n) (hpast.symm ▸ h) hproper.2 hmisc.2
      hsep
    exact ⟨r', hr'.trans hpast, (reads_misc h hproper.1 hmisc.1 hfirst).trans hreads⟩

theorem settleAll_of_misc (h : ∀ n ∈ nodes, n.isMisc = true) :
    settleAll nodes = rereadAll above nodes := by
  induction nodes with
  | nil => rfl
  | cons n rest ih =>
    rw [List.forall_mem_cons] at h
    rw [settleAll, rereadAll, ih h.2]
    cases n with
    | comment | instruction => exact joinNode_of_not_text rfl
    | _ => cases h.1

/-- Nodes at top level, with blanks around, are read as a whole text. -/
theorem reads_spread {tag : Tag} {children before after : List Node} (hr : r.past = .prolog)
    (complete : List Node)
    (hproper : AllProper (before ++ .element tag children :: after))
    (hapart : AllApart (before ++ .element tag children :: after))
    (hbefore : ∀ n ∈ before, n.isMisc = true) (hafter : ∀ n ∈ after, n.isMisc = true)
    (hfirst : ∀ c ∈ first, Text.isXmlBlank c = true)
    (hsep : ∀ c ∈ sep, Text.isXmlBlank c = true) :
    ∃ ms, Reads r ⟨[], complete⟩ (spread first sep (before ++ .element tag children :: after))
      .epilog (Assembly.putAll ⟨[], complete⟩ ms) [] ∧
      settleAll ms = rereadAll [] (before ++ .element tag children :: after) := by
  induction before generalizing r complete first with
  | nil =>
    obtain ⟨v, hv⟩ := pieceChars_head [] hproper.1 rfl
    obtain ⟨r₁, hr₁, hgap⟩ := reads_gap (a := ⟨[], complete⟩) (u := v ++ spread sep sep after)
      (.inl hr) hfirst
    have hbehind : r₁.behind = .epilog ∧ r₁ ≠ .epilog := by
      cases r₁ with
      | content | epilog => rw [hr] at hr₁; cases hr₁
      | _ => exact ⟨rfl, nofun⟩
    obtain ⟨m, helement, hm⟩ := reads_element (List.forall_mem_nil _) hproper.1 hapart.1
      hbehind.2 (a := ⟨[], complete⟩) agrees_nil (spread sep sep after)
    obtain ⟨r₂, hr₂, hrest⟩ := reads_allMisc (r := .epilog) (a := ⟨[], m :: complete⟩) (.inr rfl)
      hproper.2 hafter hsep hsep
    have hend : r₂ = .epilog := by cases r₂ <;> first | rfl | cases hr₂
    subst hend
    refine ⟨m :: after, ?_, ?_⟩
    · rw [← List.cons_append, ← hv] at hgap
      rw [hbehind.1] at helement
      exact hgap.trans (helement.trans hrest)
    · rw [settleAll, hm, settleAll_of_misc hafter]
      exact joinNode_of_not_text rfl
  | cons n before ih =>
    rw [List.forall_mem_cons] at hbefore
    obtain ⟨ms, hreads, hms⟩ := ih (r := r.past) (by rw [hr]; rfl) (n :: complete) hproper.2
      hapart.2.2 hbefore.2 hsep
    refine ⟨n :: ms, (reads_misc (.inl hr) hproper.1 hbefore.1 hfirst).trans hreads, ?_⟩
    cases n with
    | comment | instruction => rw [settleAll, hms]; exact joinNode_of_not_text rfl
    | _ => cases hbefore.1

theorem contentOfAll_map_mergeText (h : ∀ n ∈ nodes, n.isText = false) :
    contentOfAll (nodes.map Node.mergeText) = settleAll nodes := by
  induction nodes with
  | nil => rfl
  | cons n rest ih =>
    rw [List.forall_mem_cons] at h
    have hmerged : n.mergeText.isText = false := (isText_mergeText n).trans h.1
    rw [List.map_cons, contentOfAll_cons fun ht => absurd ht (by rw [hmerged]; decide), ih h.2,
      Node.content_mergeText, settleAll]

/-- A document that was read is written, with blanks between the nodes at top level, as a text that
is read again. -/
theorem parse_spread {d : Document} (hd : d.Proper) (hsep : ∀ c ∈ sep, Text.isXmlBlank c = true) :
    ∃ d', Document.parse (String.ofList (spread [] sep d.children)) = .ok d' ∧
      contentOfAll d'.children = rereadAll [] d.children := by
  obtain ⟨nodes⟩ := d
  obtain ⟨hproper, hapart, before, tag, children, after, rfl, hbefore, hafter⟩ := hd
  obtain ⟨ms, hreads, hms⟩ := reads_spread (r := .beginning) rfl [] hproper hapart hbefore
    hafter (List.forall_mem_nil _) hsep
  rw [Assembly.putAll_outside, List.append_nil] at hreads
  have htext : ∀ m ∈ ms, m.isText = false := by
    cases hreads.fits .beginning with
    | epilog hone => exact fun m hm => hone.isText m (List.mem_reverse.mpr hm)
  have hassemble : Document.assemble
      (String.ofList (spread [] sep (before ++ .element tag children :: after))) = .ok ⟨ms⟩ := by
    refine assemble_eq_ok_iff.mpr ⟨.epilog, ms.reverse, rfl, by rw [List.reverse_reverse], ?_⟩
    rw [String.toList_ofList]
    exact hreads
  refine ⟨⟨ms.map Node.mergeText⟩, ?_, ?_⟩
  · rw [Document.parse, hassemble]
    rfl
  · rw [contentOfAll_map_mergeText htext, hms]

end TopLevel

end XPathBench.Xml

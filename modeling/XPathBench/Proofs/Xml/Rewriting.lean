import XPathBench.Proofs.Xml.Declarations
import XPathBench.Proofs.Xml.Layout

/-!
# Writing again what was read

Nodes that are written, read and written again come out as the text that was written first only if
no tag was misread: a tag that is misread is written with a declaration the second time.

* `not_misread_of_startTag`: the start tag that is the same both times
* `allReadBack_of_pieceChars`: nodes that are written the same both times
-/

namespace XPathBench.Xml

variable {above : List Tag} {t : Tag} {nodes : List Node} {rest rest' : List Char}

/-! ## Start tags -/

theorem says_unique {as : List WrittenAttribute} {said said' : List (PrefixedName × String)}
    (h : List.Forall₂ WrittenAttribute.Says as said)
    (h' : List.Forall₂ WrittenAttribute.Says as said') : said = said' := by
  induction h generalizing said' with
  | nil =>
    cases h'
    rfl
  | cons ha _ ih =>
    cases h' with
    | cons ha' h' =>
      have hvalue := Except.ok.inj (ha.2.symm.trans ha'.2)
      rw [ih h', Prod.ext (ha.1.symm.trans ha'.1) hvalue]

/-- The text of a start tag tells the declarations in it, the attributes and how it ends. -/
theorem startTagText_unique {t' : Tag} {scope scope' : Scope} {closing closing' : Bool}
    (ht : t.Proper) (ht' : t'.Proper)
    (h : startTagText t.name.written (t.said (scope.extend t.needs).2) closing ++ rest =
      startTagText t'.name.written (t'.said (scope'.extend t'.needs).2) closing' ++ rest') :
    (scope.extend t.needs).2 = (scope'.extend t'.needs).2 ∧
      t.attributes.map Attribute.said = t'.attributes.map Attribute.said ∧
      closing = closing' ∧ rest = rest' := by
  obtain ⟨start, hfinds, hsay⟩ := finds_startTag_said ht scope closing rest
  obtain ⟨start', hfinds', hsay'⟩ := finds_startTag_said ht' scope' closing' rest'
  rw [h] at hfinds
  obtain ⟨hstart, hrest⟩ := hfinds.unique hfinds'
  cases hstart
  obtain ⟨hds, hothers⟩ := hsay.declarations ht
  obtain ⟨hds', hothers'⟩ := hsay'.declarations ht'
  exact ⟨hds.symm.trans hds', says_unique hothers hothers',
    hsay.selfClosing_eq.symm.trans hsay'.selfClosing_eq, hrest⟩

/-- A tag that is read again has the same needs, but for other namespaces. -/
theorem needs_reread (ht : t.Proper) (ht' : (t.reread above).Proper)
    (hattributes : t.attributes.map Attribute.said = (t.reread above).attributes.map Attribute.said)
    {p : Option String} {u : String} (h : (p, u) ∈ t.needs) :
    ∃ v, (p, v) ∈ (t.reread above).needs ∧ declared v = t.readPrefix above p := by
  rcases Tag.mem_needs_iff.mp h with hname | ⟨a, ha, hneed⟩
  · obtain ⟨v, hv, hdeclared⟩ := ht'.need_name
    obtain ⟨w, hw, _⟩ := ht.need_name
    obtain rfl : p = t.name.prefixName := congrArg Prod.fst (hname.trans hw)
    exact ⟨v, Tag.mem_needs_iff.mpr (.inl hv.symm), hdeclared⟩
  · obtain ⟨q, v, hq, _, heq⟩ := Attribute.need?_eq_some_iff.mp hneed
    cases heq
    obtain ⟨b, hb, hsaid⟩ : ∃ b ∈ (t.reread above).attributes, b.said = a.said := by
      refine List.mem_map.mp ?_
      rw [← hattributes]
      exact List.mem_map_of_mem ha
    have hbq : b.name.prefixName = some q := (congrArg (fun s => s.1.prefixName) hsaid).trans hq
    obtain ⟨w, hw, hdeclared⟩ := ht'.need_attribute hb hbq
    refine ⟨w, hw, hdeclared.trans ?_⟩
    -- Attributes that are put only replace one another.
    have hsub : (t.reread above).attributes.Sublist (t.attributes.map (t.rereadAttribute above)) :=
      Attribute.putAll_sublist
    obtain ⟨c, _, rfl⟩ := List.mem_map.mp (hsub.subset hb)
    exact congrArg (Option.bind · fun p => t.readPrefix above (some p)) hbq

/-- A tag that is written as it was, when what was read is written again, was not misread. -/
theorem not_misread_of_startTag (h : ∀ t ∈ above, t.Proper) (ht : t.Proper)
    (ht' : (t.reread above).Proper)
    (hdeclarations : t.declarations above = (t.reread above).declarations above)
    (hattributes : t.attributes.map Attribute.said =
      (t.reread above).attributes.map Attribute.said) : ¬ t.Misread above := by
  rintro ⟨⟨p, u⟩, hneed, hlost⟩
  refine (readPrefix_eq_iff h ht hneed).mp ?_ hlost
  obtain ⟨v, hv, hdeclared⟩ := needs_reread ht ht' hattributes hneed
  have hlookup := lookup_declarations h ht (ht.lookup_needs hneed)
  have hlookup' := lookup_declarations h ht' (ht'.lookup_needs hv)
  rw [← hdeclarations, hlookup] at hlookup'
  rw [← hdeclared]
  split at hlookup' <;> split at hlookup'
  · next hu hv => exact hv.symm.trans hu
  · cases hlookup'
  · cases hlookup'
  · exact congrArg declared (Option.some.inj hlookup').symm

/-! ## Nodes -/

mutual

theorem readsBack_of_pieceChars : {above : List Tag} → (∀ t ∈ above, t.Proper) → {n : Node} →
    n.Proper → (n.reread above).Proper → {rest rest' : List Char} →
    pieceChars (n.pieces (scopeIn above)) ++ rest =
      pieceChars ((n.reread above).pieces (scopeIn above)) ++ rest' →
    n.ReadsBack above ∧ rest = rest'
  | above, h, .element tag [], hn, hn', rest, rest', heq => by
    rw [Node.reread, rereadAll, pieceChars_leaf hn.1, pieceChars_leaf hn'.1] at heq
    obtain ⟨hds, has, _, hrest⟩ := startTagText_unique hn.1 hn'.1 heq
    exact ⟨⟨not_misread_of_startTag h hn.1 hn'.1 hds has, trivial⟩, hrest⟩
  | above, h, .element tag (child :: children), hn, hn', rest, rest', heq => by
    have htag' : (tag.reread above).Proper := hn'.1
    have hinner' : AllProper (rereadAll (tag :: above) (child :: children)) := hn'.2
    rw [Node.reread, pieceChars_element hn.1, List.append_assoc] at heq
    cases hlist : rereadAll (tag :: above) (child :: children) with
    | nil =>
      rw [hlist, pieceChars_leaf htag'] at heq
      cases (startTagText_unique hn.1 htag' heq).2.2.1
    | cons m ms =>
      rw [hlist, pieceChars_element htag'] at heq
      simp only [List.append_assoc] at heq
      obtain ⟨hds, has, _, hrest⟩ := startTagText_unique hn.1 htag' heq
      have hkept := not_misread_of_startTag h hn.1 htag' hds has
      -- The elements below are written in the same scope both times.
      have hscope : scopeIn (tag.reread above :: above) = scopeIn (tag :: above) := by
        rw [(tag_reread_eq_iff h hn.1).mpr hkept]
        rfl
      have hname : (tag.reread above).name.written = tag.name.written := rfl
      rw [← hlist, hscope, hname] at hrest
      obtain ⟨hchildren, hend⟩ := allReadBack_of_pieceChars (List.forall_mem_cons.mpr ⟨hn.1, h⟩)
        hn.2 hinner' hrest
      exact ⟨⟨hkept, hchildren⟩, List.append_cancel_left hend⟩
  | _, _, .text _, _, _, _, _, heq | _, _, .comment _, _, _, _, _, heq
  | _, _, .instruction _ _, _, _, _, _, heq => ⟨trivial, List.append_cancel_left heq⟩

/-- Nodes that are written as they were, when what was read is written again, were read as they
were. -/
theorem allReadBack_of_pieceChars : {above : List Tag} → (∀ t ∈ above, t.Proper) →
    {nodes : List Node} → AllProper nodes → AllProper (rereadAll above nodes) →
    {rest rest' : List Char} →
    pieceChars (piecesOfAll (scopeIn above) nodes) ++ rest =
      pieceChars (piecesOfAll (scopeIn above) (rereadAll above nodes)) ++ rest' →
    AllReadBack above nodes ∧ rest = rest'
  | _, _, [], _, _, _, _, heq => ⟨trivial, heq⟩
  | above, h, n :: nodes, hn, hn', rest, rest', heq => by
    rw [pieceChars_cons, List.append_assoc] at heq
    by_cases hempty : n.isEmptyText = true
    · rw [rereadAll, if_pos hempty] at heq hn'
      cases n with
      | text s =>
        obtain rfl : s = "" := beq_iff_eq.mp hempty
        rw [pieceChars_text] at heq
        obtain ⟨hrest, htail⟩ := allReadBack_of_pieceChars h hn.2 hn' heq
        exact ⟨⟨trivial, hrest⟩, htail⟩
      | _ => cases hempty
    · rw [rereadAll, if_neg hempty] at heq hn'
      rw [pieceChars_cons, List.append_assoc] at heq
      obtain ⟨hfirst, heq⟩ := readsBack_of_pieceChars h hn.1 hn'.1 heq
      obtain ⟨hrest, htail⟩ := allReadBack_of_pieceChars h hn.2 hn'.2 heq
      exact ⟨⟨hfirst, hrest⟩, htail⟩

end

/-! ## Documents -/

theorem isText_rereadAll (h : ∀ n ∈ nodes, n.isText = false) :
    ∀ n ∈ rereadAll above nodes, n.isText = false := by
  induction nodes with
  | nil => exact h
  | cons n rest ih =>
    rw [List.forall_mem_cons] at h
    rw [rereadAll_cons (isBlankText_of_not_text h.1), List.forall_mem_cons]
    exact ⟨(isText_reread n).trans h.1, ih h.2⟩

theorem allReadBack_of_spread {first sep : List Char} (hn : AllProper nodes)
    (hn' : AllProper (rereadAll [] nodes)) (htext : ∀ n ∈ nodes, n.isText = false)
    (h : spread first sep (rereadAll [] nodes) = spread first sep nodes) :
    AllReadBack [] nodes := by
  induction nodes generalizing first with
  | nil => trivial
  | cons n rest ih =>
    rw [List.forall_mem_cons] at htext
    rw [rereadAll_cons (isBlankText_of_not_text htext.1)] at h hn'
    have hrest := List.append_cancel_left h
    obtain ⟨hfirst, hrest⟩ := readsBack_of_pieceChars (List.forall_mem_nil _) hn.1 hn'.1 hrest.symm
    exact ⟨hfirst, ih hn.2 hn'.2 htext.2 hrest.symm⟩

/-- Line breaks inside do not change whether nodes are read as they are written. -/
theorem allReadBack_of_map_spaced {margin : Nat → String} {depth : Nat}
    (hmargin : BlankMargin margin) (hn : AllProper (dropBlankText nodes))
    (hspaced : AllProper ((dropBlankText nodes).map fun n => n.spaced margin depth))
    (h : AllReadBack [] ((dropBlankText nodes).map fun n => n.spaced margin depth)) :
    AllReadBack [] (dropBlankText nodes) := by
  refine (rereadAll_eq_iff (List.forall_mem_nil _) hn).mp ?_
  have heq := congrArg dropBlankText ((rereadAll_eq_iff (List.forall_mem_nil _) hspaced).mpr h)
  rwa [dropBlankText_rereadAll, dropBlankText_contentOfAll, dropBlankText_map_spaced hmargin,
    dropBlankText_idem] at heq

/-- A document that is laid out, read and laid out again comes out as it was if and only if no tag
was misread. -/
theorem pretty_pretty_iff {margin : Nat → String} (hmargin : BlankMargin margin)
    {d d' : Document} (h : d.Proper) (h' : d'.Proper) (hcontent : contentOfAll d'.children =
      rereadAll [] ((dropBlankText d.children).map fun n => n.spaced margin 0)) :
    d'.pretty margin = d.pretty margin ↔ AllReadBack [] (dropBlankText d.children) := by
  have hdropped := h.dropBlankText
  rw [pretty_of_content hmargin h' hcontent, h.pretty_eq]
  constructor
  · intro heq
    rw [layOut_eq_spread hmargin hdropped.oneElement.isText, layOut_eq_spread hmargin ?_,
      ← String.toList_inj, String.toList_ofList, String.toList_ofList,
      map_spaced_rereadAll h.oneElement.isText] at heq
    · have hspaced := hdropped.map_spaced margin 0
      refine allReadBack_of_map_spaced hmargin hdropped.children hspaced.children ?_
      exact allReadBack_of_spread hspaced.children (hcontent ▸ AllProper.content h'.children)
        hspaced.oneElement.isText heq
    · exact isText_rereadAll hdropped.oneElement.isText
  · intro hback
    rw [(rereadAll_eq_iff (List.forall_mem_nil _) hdropped.children).mpr hback,
      piecesOfAll_contentOfAll]

end XPathBench.Xml

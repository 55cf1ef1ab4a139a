import XPathBench.Proofs.Xml.WrittenTags

/-!
# What is read from written tags

A reader that has come through the start tags of some elements takes prefixes for namespaces. It
agrees with the writer, but for two things: it forgets that a default namespace was taken back, and
the top element cannot bind `xml` for the elements inside it.

* `needsFor`: what elements ask of a prefix
* `readPrefix`: what a reader inside written elements takes a prefix for
* `Tag.reread`, `Node.reread`: what becomes of tags and nodes that are written and read again
* `Tag.Misread`: when a tag is not read as it was
-/

namespace XPathBench.Xml

/-! ## What elements ask of a prefix -/

/-- What elements ask of a prefix, or of the default namespace, in their order. -/
def needsFor (p : Option String) (tags : List Tag) : List String :=
  tags.filterMap fun t => t.needs.lookup p

/-- The scope of a writer inside elements, the innermost first. -/
def scopeIn : List Tag → Scope
  | [] => []
  | t :: above => ((scopeIn above).extend t.needs).1

/-- The declarations in the start tag of an element inside others. -/
def Tag.declarations (above : List Tag) (t : Tag) : List (Option String × String) :=
  ((scopeIn above).extend t.needs).2

/-- The top element of the elements around a tag binds `xml` to a namespace, and all of them that
use the prefix use it for that namespace. -/
def KeepsXml (above : List Tag) (u : String) : Prop :=
  (above.getLast?.bind fun top => top.needs.lookup (some "xml")) = some u ∧
    ∀ v ∈ needsFor (some "xml") above, v = u

instance (above : List Tag) (u : String) : Decidable (KeepsXml above u) :=
  inferInstanceAs (Decidable (_ ∧ _))

/-- The namespace that a reader takes `xml` for inside written elements: what the top element binds
it to does not reach the elements inside it. -/
def readXml (above : List Tag) : Option String :=
  if above = [] then none
  else some ((needsFor (some "xml") above).head?.elim xmlUri fun u =>
    if KeepsXml above u then xmlUri else u)

/-- The namespace that a reader takes a prefix for, or names without prefix, inside written
elements: that a default namespace was taken back does not reach the elements inside. -/
def readPrefix (above : List Tag) : Option String → Option String
  | none => (needsFor none above).find? (· ≠ "")
  | some p => if p = "xml" then readXml above else (needsFor (some p) above).head?

/-- What is asked of a prefix inside elements is not what a reader takes the prefix for. Either no
namespace is asked for names without prefix, the nearest element that uses them took a default
namespace back, and so did not declare that there is none any more; or `xml` is asked for a
namespace that is not the usual one, as the top element does, and no element between them asks for
another one. -/
def IsLost (above : List Tag) : Option String × String → Prop
  | (none, u) =>
    u = "" ∧ (needsFor none above).head? = some "" ∧ ∃ v ∈ needsFor none above, v ≠ ""
  | (some p, u) => p = "xml" ∧ u ≠ xmlUri ∧ KeepsXml above u

instance (above : List Tag) : (need : Option String × String) → Decidable (IsLost above need)
  | (none, u) =>
    inferInstanceAs (Decidable (u = "" ∧ (needsFor none above).head? = some "" ∧
      ∃ v ∈ needsFor none above, v ≠ ""))
  | (some p, u) => inferInstanceAs (Decidable (p = "xml" ∧ u ≠ xmlUri ∧ KeepsXml above u))

/-! ## Reading again -/

namespace Tag

/-- The namespace that a prefix in a tag is taken for: by a declaration in the tag, or else by those
of the elements around it. -/
def readPrefix (above : List Tag) (t : Tag) (p : Option String) : Option String :=
  ((t.declarations above).lookup p).elim (Xml.readPrefix above p) declared

/-- An attribute of a tag that is read again. -/
def rereadAttribute (above : List Tag) (t : Tag) (a : Attribute) : Attribute :=
  ⟨⟨a.name.prefixName.bind fun p => t.readPrefix above (some p), a.name.prefixName,
    a.name.localName⟩, a.value⟩

/-- A tag that is written inside elements and read again. -/
def reread (above : List Tag) (t : Tag) : Tag where
  name := ⟨t.readPrefix above t.name.prefixName, t.name.prefixName, t.name.localName⟩
  bindings := []
  attributes := Attribute.putAll [] (t.attributes.map (t.rereadAttribute above))

/-- Some need of the tag is lost, so it is not read as it was written. -/
def Misread (above : List Tag) (t : Tag) : Prop := ∃ need ∈ t.needs, IsLost above need

instance (above : List Tag) (t : Tag) : Decidable (t.Misread above) :=
  inferInstanceAs (Decidable (∃ need ∈ t.needs, IsLost above need))

end Tag

mutual

/-- A node that is written inside elements and read again. -/
def Node.reread (above : List Tag) : Node → Node
  | .element tag children => .element (tag.reread above) (rereadAll (tag :: above) children)
  | n => n

/-- Nodes that are written inside elements and read again. -/
def rereadAll (above : List Tag) : List Node → List Node
  | [] => []
  | n :: rest =>
    if n.isEmptyText then rereadAll above rest else n.reread above :: rereadAll above rest

end

mutual

/-- All tags of a node inside elements are read as they are written. -/
def Node.ReadsBack (above : List Tag) : Node → Prop
  | .element tag children => ¬ tag.Misread above ∧ AllReadBack (tag :: above) children
  | _ => True

/-- All tags of nodes inside elements are read as they are written. -/
def AllReadBack (above : List Tag) : List Node → Prop
  | [] => True
  | n :: rest => n.ReadsBack above ∧ AllReadBack above rest

end

mutual

instance Node.decidableReadsBack : (above : List Tag) → (n : Node) → Decidable (n.ReadsBack above)
  | above, .element tag children =>
    have := AllReadBack.decidable (tag :: above) children
    inferInstanceAs (Decidable (¬ tag.Misread above ∧ AllReadBack (tag :: above) children))
  | _, .text _ | _, .comment _ | _, .instruction _ _ => .isTrue trivial

instance AllReadBack.decidable :
    (above : List Tag) → (nodes : List Node) → Decidable (AllReadBack above nodes)
  | _, [] => .isTrue trivial
  | above, n :: rest =>
    have := Node.decidableReadsBack above n
    have := AllReadBack.decidable above rest
    inferInstanceAs (Decidable (n.ReadsBack above ∧ AllReadBack above rest))

end

/-! ## The writer and the reader -/

variable {above : List Tag} {t : Tag} {p : Option String} {q u : String}

theorem needsFor_cons : needsFor p (t :: above) =
    (t.needs.lookup p).elim (needsFor p above) (· :: needsFor p above) := by
  rw [needsFor, List.filterMap_cons]
  cases t.needs.lookup p <;> rfl

theorem lookup_scopeIn (h : ∀ t ∈ above, t.Proper) :
    (scopeIn above).lookup p = (needsFor p above).head?.bind declared := by
  induction above with
  | nil => rfl
  | cons t above ih =>
    rw [List.forall_mem_cons] at h
    rw [scopeIn, Scope.lookup_extend h.1.consistent, ih h.2, needsFor_cons]
    cases t.needs.lookup p <;> rfl

theorem Tag.Proper.consistent_declarations (ht : t.Proper) : Consistent (t.declarations above) :=
  Scope.consistent_extend ht.consistent

/-- A need is declared unless the elements around leave the prefix with it. -/
theorem lookup_declarations (h : ∀ t ∈ above, t.Proper) (ht : t.Proper)
    (hneed : t.needs.lookup p = some u) : (t.declarations above).lookup p =
      if (needsFor p above).head?.bind declared = declared u then none else some u := by
  rw [Tag.declarations, Scope.lookup_extend_snd ht.consistent, lookup_scopeIn h, hneed,
    Option.filter_some]
  simp only [ne_eq, decide_not, Bool.not_eq_true', decide_eq_false_iff_not, ite_not]

theorem lookup_declarations_none (ht : t.Proper) (h : t.needs.lookup p = none) :
    (t.declarations above).lookup p = none := by
  rw [Tag.declarations, Scope.lookup_extend_snd ht.consistent, h, Option.filter_none]

/-- Only the default namespace can be taken back. -/
theorem Tag.Proper.need_ne (ht : t.Proper) (h : (some q, u) ∈ t.needs) : u ≠ "" := by
  rintro rfl
  rcases Tag.mem_needs_iff.mp h with h | ⟨a, ha, h⟩
  · exact ht.name.uri_ne (Tag.need_eq_some_iff.mp h.symm).2
  · obtain ⟨p, v, _, hv, heq⟩ := Attribute.need?_eq_some_iff.mp h
    cases heq
    exact (ht.attributes a ha).name.uri_ne hv

theorem ne_of_mem_needsFor (h : ∀ t ∈ above, t.Proper) (hu : u ∈ needsFor (some q) above) :
    u ≠ "" := by
  obtain ⟨t, ht, hu⟩ := List.mem_filterMap.mp hu
  exact (h t ht).need_ne (mem_of_lookup hu)

/-- A prefix is not declared again if the nearest element that uses it uses it alike. -/
theorem head?_bind_declared (h : ∀ t ∈ above, t.Proper) (hu : u ≠ "") :
    (needsFor (some q) above).head?.bind declared = declared u ↔
      (needsFor (some q) above).head? = some u := by
  cases hl : (needsFor (some q) above).head? with
  | none => simp [declared, hu]
  | some v =>
    have hv := ne_of_mem_needsFor h (List.mem_of_head? hl)
    simp [declared, hu, hv]

theorem KeepsXml.head? (h : KeepsXml above u) :
    (needsFor (some "xml") above).head? = some u := by
  obtain ⟨top, htop, hlookup⟩ := Option.bind_eq_some_iff.mp h.1
  have hmem : u ∈ needsFor (some "xml") above :=
    List.mem_filterMap.mpr ⟨top, List.mem_of_getLast? htop, hlookup⟩
  obtain ⟨v, rest, hlist⟩ := List.exists_cons_of_ne_nil (List.ne_nil_of_mem hmem)
  rw [hlist, List.head?_cons, h.2 v (by simp [hlist])]

theorem ne_nil_of_head?_needsFor {v : String} (h : (needsFor p above).head? = some v) :
    above ≠ [] := by
  rintro rfl
  cases h

theorem find?_default_eq_none_iff : (needsFor none above).find? (· ≠ "") = none ↔
    ¬ ∃ v ∈ needsFor none above, v ≠ "" := by
  simp

/-- The elements around provide a need that is lost, so it is not declared. -/
theorem IsLost.provided (h : IsLost above (p, u)) :
    (needsFor p above).head?.bind declared = declared u := by
  cases p with
  | none =>
    obtain ⟨rfl, hhead, _⟩ := h
    rw [hhead]
    rfl
  | some q =>
    obtain ⟨rfl, _, hkeeps⟩ := h
    rw [hkeeps.head?]
    rfl

/-- A default namespace that the elements around provide is read. -/
theorem readPrefix_none_of_provided (hu : u ≠ "")
    (h : (needsFor none above).head?.bind declared = declared u) :
    readPrefix above none = declared u := by
  rw [declared_of_ne hu] at h ⊢
  obtain ⟨v, hhead, hv⟩ := Option.bind_eq_some_iff.mp h
  obtain ⟨rest, hlist⟩ := List.head?_eq_some_iff.mp hhead
  obtain rfl := eq_of_declared hv
  rw [readPrefix, hlist, List.find?_cons_of_pos (by simpa using hu)]

/-- That there is no default namespace is read unless one was taken back. -/
theorem readPrefix_none_eq_iff (h : (needsFor none above).head?.bind declared = declared u) :
    readPrefix above none = declared u ↔ ¬ IsLost above (none, u) := by
  by_cases hu : u = ""
  · subst hu
    rw [IsLost, readPrefix, show declared "" = none from rfl, find?_default_eq_none_iff,
      not_iff_not]
    refine ⟨fun hv => ⟨rfl, ?_, hv⟩, fun hlost => hlost.2.2⟩
    obtain ⟨v, hv, _⟩ := hv
    obtain ⟨w, rest, hlist⟩ := List.exists_cons_of_ne_nil (List.ne_nil_of_mem hv)
    rw [hlist] at h ⊢
    by_contra hw
    rw [List.head?_cons, Option.some_inj] at hw
    simp [declared, hw] at h
  · exact iff_of_true (readPrefix_none_of_provided hu h) fun hlost => hu hlost.1

/-- A prefix that the elements around provide is read, but for `xml` if the top element binds it. -/
theorem readPrefix_some_eq_iff (hu : u ≠ "") (h : (needsFor (some q) above).head? = some u) :
    readPrefix above (some q) = declared u ↔ ¬ IsLost above (some q, u) := by
  rw [declared_of_ne hu, readPrefix]
  by_cases hq : q = "xml"
  · subst hq
    rw [if_pos rfl, readXml, if_neg (ne_nil_of_head?_needsFor h), h, IsLost]
    by_cases hkeeps : KeepsXml above u
    · simp [hkeeps, eq_comm]
    · simp [hkeeps]
  · rw [if_neg hq, h]
    exact iff_of_true rfl fun hlost => hq hlost.1

/-- A need is read as it was written unless it is lost. -/
theorem readPrefix_eq_iff (h : ∀ t ∈ above, t.Proper) (ht : t.Proper) (hneed : (p, u) ∈ t.needs) :
    t.readPrefix above p = declared u ↔ ¬ IsLost above (p, u) := by
  rw [Tag.readPrefix, lookup_declarations h ht (ht.lookup_needs hneed)]
  split
  · next hprovided =>
    show readPrefix above p = declared u ↔ _
    cases p with
    | none => exact readPrefix_none_eq_iff hprovided
    | some q =>
      have hu := ht.need_ne hneed
      exact readPrefix_some_eq_iff hu ((head?_bind_declared h hu).mp hprovided)
  · next hne => exact iff_of_true rfl fun hlost => hne hlost.provided

/-! ## Tags that are read as they were -/

theorem rereadAttribute_eq_iff (h : ∀ t ∈ above, t.Proper) (ht : t.Proper) {a : Attribute}
    (ha : a ∈ t.attributes) : t.rereadAttribute above a = a ↔
      ∀ need, a.need? = some need → ¬ IsLost above need := by
  obtain ⟨⟨uri, p, l⟩, value⟩ := a
  cases p with
  | none =>
    have huri : uri = none := (ht.attributes _ ha).unbound rfl
    subst huri
    exact iff_of_true rfl nofun
  | some p =>
    obtain ⟨u, hu, rfl⟩ := ht.need_attribute ha rfl
    have hne : declared u = some u := declared_of_ne (ht.need_ne hu)
    have hneed : Attribute.need? ⟨⟨declared u, some p, l⟩, value⟩ = some (some p, u) :=
      Attribute.need?_eq_some_iff.mpr ⟨p, u, rfl, hne, rfl⟩
    have hread := readPrefix_eq_iff h ht hu
    rw [hneed]
    constructor
    · intro heq need hsome
      cases hsome
      exact hread.mp (congrArg (fun b : Attribute => b.name.uri) heq)
    · intro hkept
      have := hread.mpr (hkept _ rfl)
      simp [Tag.rereadAttribute, this]

theorem Tag.Proper.nodup_written (ht : t.Proper) :
    (t.attributes.map fun a => a.name.written).Nodup :=
  List.pairwise_map.mpr (ht.ordered.imp fun hlt => hlt.ne)

/-- The attributes of a tag are read as they were unless one of them has a need that is lost. -/
theorem reread_attributes_eq_iff (above : List Tag) (ht : t.Proper) :
    (t.reread above).attributes = t.attributes ↔
      ∀ a ∈ t.attributes, t.rereadAttribute above a = a := by
  constructor
  · intro heq a ha
    -- What is read anew is among the attributes that were put, which keep prefix and local name.
    have hmem : a ∈ t.attributes.map (t.rereadAttribute above) := by
      have hsub :
          (t.reread above).attributes.Sublist (t.attributes.map (t.rereadAttribute above)) :=
        Attribute.putAll_sublist
      exact hsub.subset (heq ▸ ha)
    obtain ⟨b, hb, hab⟩ := List.mem_map.mp hmem
    have hname : b.name.written = a.name.written := by rw [← hab]; rfl
    rwa [List.inj_on_of_nodup_map ht.nodup_written hb ha hname] at hab
  · intro heq
    rw [Tag.reread, List.map_congr_left heq, List.map_id']
    exact Attribute.putAll_of_pairwise (by simpa using ht.distinct)

/-- A tag is read as it was unless it is misread. -/
theorem tag_reread_eq_iff (h : ∀ t ∈ above, t.Proper) (ht : t.Proper) :
    t.reread above = { t with bindings := [] } ↔ ¬ t.Misread above := by
  have hname : (t.reread above).name = t.name ↔ ¬ IsLost above t.need := by
    obtain ⟨u, hneed, hu⟩ := ht.need_name
    rw [hneed, ← readPrefix_eq_iff h ht (Tag.mem_needs_iff.mpr (.inl hneed.symm)), hu]
    exact ⟨congrArg Name.uri, fun huri => by rw [Tag.reread, huri]⟩
  have hattributes := reread_attributes_eq_iff above ht
  constructor
  · rintro heq ⟨need, hmem, hlost⟩
    rcases Tag.mem_needs_iff.mp hmem with rfl | ⟨a, ha, hneed⟩
    · exact hname.mp (congrArg (·.name) heq) hlost
    · have := hattributes.mp (congrArg (·.attributes) heq) a ha
      exact (rereadAttribute_eq_iff h ht ha).mp this need hneed hlost
  · intro hkept
    have h₁ := hname.mpr fun hlost => hkept ⟨_, Tag.mem_needs_iff.mpr (.inl rfl), hlost⟩
    have h₂ := hattributes.mpr fun a ha => (rereadAttribute_eq_iff h ht ha).mpr
      fun need hneed hlost => hkept ⟨need, Tag.mem_needs_iff.mpr (.inr ⟨a, ha, hneed⟩), hlost⟩
    calc t.reread above = ⟨(t.reread above).name, [], (t.reread above).attributes⟩ := rfl
      _ = { t with bindings := [] } := by rw [h₁, h₂]

mutual

theorem node_reread_eq_iff : {above : List Tag} → (∀ t ∈ above, t.Proper) → {n : Node} →
    n.Proper → (n.reread above = n.content ↔ n.ReadsBack above)
  | above, h, .element tag children, hn => by
    have hchildren := rereadAll_eq_iff (List.forall_mem_cons.mpr ⟨hn.1, h⟩) hn.2
    rw [Node.reread, Node.content, Node.ReadsBack, Node.element.injEq, tag_reread_eq_iff h hn.1,
      hchildren]
  | _, _, .text _, _ | _, _, .comment _, _ | _, _, .instruction _ _, _ => iff_of_true rfl trivial

/-- What is written and read again is what it was if and only if no tag is misread. -/
theorem rereadAll_eq_iff : {above : List Tag} → (∀ t ∈ above, t.Proper) → {nodes : List Node} →
    AllProper nodes → (rereadAll above nodes = contentOfAll nodes ↔ AllReadBack above nodes)
  | _, _, [], _ => iff_of_true rfl trivial
  | above, h, n :: rest, hn => by
    have hrest := rereadAll_eq_iff h hn.2
    rw [rereadAll, contentOfAll, AllReadBack, ← node_reread_eq_iff h hn.1, ← hrest]
    split
    · next hempty =>
      have hsame : n.reread above = n.content := by
        cases n with
        | element => cases hempty
        | _ => rfl
      simp [hsame]
    · rw [List.cons_eq_cons]

end

end XPathBench.Xml

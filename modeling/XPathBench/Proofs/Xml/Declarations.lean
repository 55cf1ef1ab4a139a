import XPathBench.Proofs.Xml.WrittenTags

/-!
# Declarations as they are read

The start tags among pieces are read with the usual scoping of namespaces: a prefix stands for what
the innermost open element declares for it, and only what is written counts.

* `standsFor`: the namespace of a prefix inside open elements
* `readTags`: the start tags among pieces, each with the declarations around it
* `TagInScope.Faithful`: a start tag says no more and no less than it has to
* `faithful_piecesOfAll`: every start tag that is written is faithful to its element
-/

namespace XPathBench.Xml

open Reader Grammar

/-! ## Scoping -/

/-- The namespace of a prefix, or of names without prefix, inside open elements that make
declarations, the innermost first. The empty namespace is none. -/
def standsFor (opened : List (List (Option String × String))) (p : Option String) :
    Option String :=
  (opened.findSome? fun declarations => declarations.lookup p).filter (· ≠ "")

/-- The declaration that an attribute makes in a tag. -/
def WrittenAttribute.declaration? (a : WrittenAttribute) : Option (Option String × String) :=
  match resolveValue a.value with
  | .error _ => none
  | .ok value =>
    if a.name.prefixName = some "xmlns" then some (some a.name.localName, value)
    else if a.name = ⟨none, "xmlns"⟩ then some (none, value)
    else none

/-- The declarations in a start tag. -/
def StartTag.declarations (tag : StartTag) : List (Option String × String) :=
  tag.attributes.filterMap WrittenAttribute.declaration?

/-- The attributes in a start tag that declare nothing. -/
def StartTag.others (tag : StartTag) : List WrittenAttribute :=
  tag.attributes.filter fun a => a.declaration?.isNone

/-- A start tag with the declarations of the elements that are open around it, innermost first. -/
structure TagInScope where
  tag : StartTag
  around : List (List (Option String × String))

/-- What a prefix stands for in the names of the tag. -/
def TagInScope.inside (t : TagInScope) : Option String → Option String :=
  standsFor (t.tag.declarations :: t.around)

/-- The start tag that a text is. -/
def startTagOf? (text : String) : Option StartTag :=
  match startTag (.of text.toList) with
  | .found (.opening tag) next _ => if next.rest = [] then some tag else none
  | _ => none

/-- The start tags among pieces, each with the declarations around it, and the declarations of the
elements that are open behind the pieces. -/
def readTags (opened : List (List (Option String × String))) :
    List Piece → List TagInScope × List (List (Option String × String))
  | [] => ([], opened)
  | .opening s :: rest =>
    match startTagOf? s with
    | some tag =>
      let later := readTags (tag.declarations :: opened) rest
      (⟨tag, opened⟩ :: later.1, later.2)
    | none => readTags ([] :: opened) rest
  | .closing _ :: rest => readTags opened.tail rest
  | .single s :: rest =>
    let later := readTags opened rest
    match startTagOf? s with
    | some tag => (⟨tag, opened⟩ :: later.1, later.2)
    | none => later
  | .text _ :: rest => readTags opened rest

mutual

/-- The tags of the elements in a node, in document order. -/
def Node.tags : Node → List Tag
  | .element tag children => tag :: tagsOfAll children
  | _ => []

/-- The tags of the elements in nodes, in document order. -/
def tagsOfAll : List Node → List Tag
  | [] => []
  | n :: rest => n.tags ++ tagsOfAll rest

end

mutual

theorem Node.tags_withoutBlankText : (n : Node) → n.withoutBlankText.tags = n.tags
  | .element tag children => congrArg (tag :: ·) (tagsOfAll_dropBlankText children)
  | .text _ | .comment _ | .instruction _ _ => rfl

/-- Blank text holds no tags. -/
theorem tagsOfAll_dropBlankText :
    (nodes : List Node) → tagsOfAll (dropBlankText nodes) = tagsOfAll nodes
  | [] => rfl
  | n :: rest => by
    rw [dropBlankText, tagsOfAll]
    split
    · next hblank =>
      have hn : n.tags = [] := by
        cases n with
        | element => cases hblank
        | _ => rfl
      rw [hn, tagsOfAll_dropBlankText rest, List.nil_append]
    · rw [tagsOfAll, Node.tags_withoutBlankText n, tagsOfAll_dropBlankText rest]

end

theorem tagsOfAll_map_withoutBlankText (nodes : List Node) :
    tagsOfAll (nodes.map Node.withoutBlankText) = tagsOfAll nodes := by
  induction nodes with
  | nil => rfl
  | cons n rest ih => rw [List.map_cons, tagsOfAll, tagsOfAll, ih, n.tags_withoutBlankText]

/-- A start tag gives an element its name and its attributes, each in its namespace, declares no
prefix twice, and declares only what is needed and not so around it. -/
structure TagInScope.Faithful (r : TagInScope) (t : Tag) : Prop where
  name_eq : r.tag.name = t.name.written
  name_uri : r.inside t.name.prefixName = t.name.uri
  attributes : List.Forall₂ WrittenAttribute.Says r.tag.others (t.attributes.map Attribute.said)
  attribute_uri : ∀ a ∈ t.attributes, ∀ p, a.name.prefixName = some p →
    r.inside (some p) = a.name.uri
  once : (r.tag.declarations.map Prod.fst).Nodup
  needed : ∀ d ∈ r.tag.declarations, d ∈ t.needs ∧ standsFor r.around d.1 ≠ declared d.2

variable {opened : List (List (Option String × String))} {t : Tag} {scope : Scope}

theorem readTags_append {ps qs : List Piece} :
    readTags opened (ps ++ qs) =
      ((readTags opened ps).1 ++ (readTags (readTags opened ps).2 qs).1,
        (readTags (readTags opened ps).2 qs).2) := by
  induction ps generalizing opened with
  | nil => rfl
  | cons p ps ih =>
    cases p with
    | closing s => exact ih
    | text s => exact ih
    | opening s | single s =>
      simp only [List.cons_append, readTags]
      split <;> simp only [ih, List.cons_append]

/-! ## Start tags that were written -/

theorem startTagOf?_eq_some {text : String} {tag : StartTag}
    (h : startTag.Finds text.toList (.opening tag) []) : startTagOf? text = some tag := by
  obtain ⟨tried, h⟩ := h
  rw [startTagOf?, h]
  rfl

theorem startTagOf?_eq_none {text : String} (h : startTag.GivesWay text.toList) :
    startTagOf? text = none := by
  obtain ⟨fault, tried, h, _⟩ := h
  rw [startTagOf?, h]

theorem declaration?_declarationSaid {a : WrittenAttribute} {d : Option String × String}
    (h : a.Says (declarationSaid d)) : a.declaration? = some d := by
  obtain ⟨p, u⟩ := d
  rw [WrittenAttribute.declaration?, h.2, h.1]
  cases p <;> rfl

theorem declaration?_said {a : WrittenAttribute} {b : Attribute} (hb : b.Proper)
    (h : a.Says b.said) : a.declaration? = none := by
  rw [WrittenAttribute.declaration?, h.2, h.1]
  simp [Attribute.said, Name.written, hb.prefix_ne, hb.local_ne]

theorem filterMap_declaration? {as : List WrittenAttribute}
    {ds : List (Option String × String)}
    (h : List.Forall₂ WrittenAttribute.Says as (ds.map declarationSaid)) :
    as.filterMap WrittenAttribute.declaration? = ds := by
  induction ds generalizing as with
  | nil => rw [List.forall₂_nil_right_iff.mp h]; rfl
  | cons d ds ih =>
    obtain ⟨a, as, ha, has, rfl⟩ := List.forall₂_cons_right_iff.mp h
    rw [List.filterMap_cons_some (declaration?_declarationSaid ha), ih has]

/-- What a start tag says is taken apart into declarations and other attributes. -/
theorem StartTag.Says.declarations {tag : StartTag} {ds : List (Option String × String)}
    {selfClosing : Bool} (ht : t.Proper) (h : tag.Says t.name.written (t.said ds) selfClosing) :
    tag.declarations = ds ∧
      List.Forall₂ WrittenAttribute.Says tag.others (t.attributes.map Attribute.said) := by
  obtain ⟨ds', os, hsplit, hds, hos⟩ := StartTag.Says.split h
  have hnone : ∀ a ∈ os, a.declaration? = none := by
    intro a ha
    obtain ⟨b, hb, hsay⟩ := says_of_mem_left hos ha
    exact declaration?_said (ht.attributes b hb) hsay
  have hsome : ∀ a ∈ ds', a.declaration?.isNone = false := by
    intro a ha
    obtain ⟨d, _, hsay⟩ := says_of_mem_left hds ha
    rw [declaration?_declarationSaid hsay]
    rfl
  constructor
  · rw [StartTag.declarations, hsplit, List.filterMap_append, filterMap_declaration? hds,
      List.filterMap_eq_nil_iff.mpr hnone, List.append_nil]
  · rw [StartTag.others, hsplit, filter_append_eq_right hsome fun a ha => by simp [hnone a ha]]
    exact hos

/-! ## The scope of the writer -/

theorem standsFor_cons {declarations : List (Option String × String)} {p : Option String} :
    standsFor (declarations :: opened) p =
      (declarations.lookup p).elim (standsFor opened p) declared := by
  rw [standsFor, List.findSome?_cons]
  cases declarations.lookup p with
  | none => rfl
  | some u =>
    by_cases hu : u = "" <;> simp [declared, hu]

/-- The writer takes a prefix for what a reader of its declarations takes it for. -/
def Scope.Shows (scope : Scope) (opened : List (List (Option String × String))) : Prop :=
  ∀ p, scope.lookup p = standsFor opened p

theorem Scope.Shows.extend {needs : List (Option String × String)} (h : scope.Shows opened)
    (hneeds : Consistent needs) :
    (scope.extend needs).1.Shows ((scope.extend needs).2 :: opened) := by
  intro p
  rw [Scope.lookup_extend hneeds, standsFor_cons, Scope.lookup_extend_snd hneeds, ← h p]
  cases needs.lookup p with
  | none => rfl
  | some u => by_cases heq : scope.lookup p = declared u <;> simp [heq, Option.filter_some]

/-- What a tag needs of a prefix is what the prefix stands for inside it. -/
theorem standsFor_need {u : String} {p : Option String} (ht : t.Proper) (h : scope.Shows opened)
    (hneed : (p, u) ∈ t.needs) :
    standsFor ((scope.extend t.needs).2 :: opened) p = declared u := by
  rw [← h.extend ht.consistent p, Scope.lookup_extend ht.consistent,
    ht.lookup_needs hneed]
  rfl

theorem faithful_startTag {tag : StartTag} {selfClosing : Bool} (ht : t.Proper)
    (h : scope.Shows opened)
    (hsay : tag.Says t.name.written (t.said (scope.extend t.needs).2) selfClosing) :
    TagInScope.Faithful ⟨tag, opened⟩ t := by
  obtain ⟨hds, hothers⟩ := StartTag.Says.declarations ht hsay
  have hinside : TagInScope.inside ⟨tag, opened⟩ =
      standsFor ((scope.extend t.needs).2 :: opened) := by rw [TagInScope.inside, hds]
  refine ⟨hsay.name_eq, ?_, hothers, fun a ha p hp => ?_, ?_, fun d hd => ?_⟩
  · obtain ⟨u, hneed, hu⟩ := ht.need_name
    rw [hinside, standsFor_need ht h (Tag.mem_needs_iff.mpr (.inl hneed.symm)), hu]
  · obtain ⟨u, hneed, hu⟩ := ht.need_attribute ha hp
    rw [hinside, standsFor_need ht h hneed, hu]
  · rw [hds]
    exact Scope.nodup_extend ht.consistent
  · rw [hds] at hd
    obtain ⟨hneed, hne⟩ := (Scope.mem_extend_iff ht.consistent).mp hd
    rw [h d.1] at hne
    exact ⟨hneed, hne⟩

/-! ## Pieces that were written -/

theorem givesWay_startTag_comment {s : String} :
    startTag.GivesWay (commentMarkup s).toList := by
  obtain ⟨v, hv⟩ : ∃ v, (commentMarkup s).toList = '<' :: '!' :: v :=
    ⟨_, by rw [commentMarkup_toList]; rfl⟩
  rw [hv]
  exact givesWay_startTag (fun _ _ heq => by cases heq; simp) (by simp)

theorem givesWay_startTag_instruction {target : String} {value : Option String} :
    startTag.GivesWay (instructionMarkup target value).toList := by
  obtain ⟨v, hv⟩ : ∃ v, (instructionMarkup target value).toList = '<' :: '?' :: v :=
    ⟨_, by rw [instructionMarkup_toList]; rfl⟩
  rw [hv]
  exact givesWay_startTag (fun _ _ heq => by cases heq; simp) (by simp)

theorem readTags_single_text {s : String} (h : startTag.GivesWay s.toList) :
    readTags opened [.single s] = ([], opened) := by
  simp [readTags, startTagOf?_eq_none h]

/-- The tags that are read in pieces are faithful to tags, and all elements are closed behind them.
-/
def ReadAs (opened : List (List (Option String × String))) (pieces : List Piece)
    (tags : List Tag) : Prop :=
  List.Forall₂ TagInScope.Faithful (readTags opened pieces).1 tags ∧
    (readTags opened pieces).2 = opened

theorem ReadAs.append {ps qs : List Piece} {ts us : List Tag} (h : ReadAs opened ps ts)
    (h' : ReadAs opened qs us) : ReadAs opened (ps ++ qs) (ts ++ us) := by
  rw [ReadAs, readTags_append, h.2]
  exact ⟨List.rel_append h.1 h'.1, h'.2⟩

mutual

theorem readAs_pieces : {scope : Scope} → {opened : List (List (Option String × String))} →
    scope.Shows opened → {n : Node} → n.Proper → ReadAs opened (n.pieces scope) n.tags
  | scope, opened, h, .element tag [], hn => by
    obtain ⟨start, hfinds, hsay⟩ := finds_startTag_said hn.1 scope true []
    rw [List.append_nil, ← leaf_toList hn.1] at hfinds
    rw [pieces_leaf, ReadAs, readTags, startTagOf?_eq_some hfinds]
    exact ⟨.cons (faithful_startTag hn.1 h hsay) .nil, rfl⟩
  | scope, opened, h, .element tag (child :: rest), hn => by
    obtain ⟨start, hfinds, hsay⟩ := finds_startTag_said hn.1 scope false []
    rw [List.append_nil, ← opening_toList hn.1] at hfinds
    have hinner : Scope.Shows (scope.extend tag.needs).1 (start.declarations :: opened) := by
      rw [(StartTag.Says.declarations hn.1 hsay).1]
      exact h.extend hn.1.consistent
    have hchildren := readAs_piecesOfAll hinner hn.2
    rw [pieces_element, ReadAs, readTags, startTagOf?_eq_some hfinds]
    simp only [readTags_append, hchildren.2]
    refine ⟨.cons (faithful_startTag hn.1 h hsay) ?_, rfl⟩
    show List.Forall₂ _ (_ ++ []) _
    rw [List.append_nil]
    exact hchildren.1
  | _, _, _, .text _, _ => ⟨.nil, rfl⟩
  | _, _, _, .comment s, _ => by
    rw [Node.pieces, ReadAs, readTags_single_text givesWay_startTag_comment]
    exact ⟨.nil, rfl⟩
  | _, _, _, .instruction target value, _ => by
    rw [Node.pieces, ReadAs, readTags_single_text givesWay_startTag_instruction]
    exact ⟨.nil, rfl⟩

/-- Every start tag that is written is faithful to its element, and every element is closed. -/
theorem readAs_piecesOfAll : {scope : Scope} → {opened : List (List (Option String × String))} →
    scope.Shows opened → {nodes : List Node} → AllProper nodes →
      ReadAs opened (piecesOfAll scope nodes) (tagsOfAll nodes)
  | _, _, _, [], _ => ⟨.nil, rfl⟩
  | _, _, h, _ :: _, hn => (readAs_pieces h hn.1).append (readAs_piecesOfAll h hn.2)

end

end XPathBench.Xml

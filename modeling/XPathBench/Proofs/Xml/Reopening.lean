import XPathBench.Proofs.Xml.Rereading

/-!
# What written start tags open

The start tag of an element, written inside others and read inside what these opened, opens an
element again.

* `Agrees`: open elements tell a reader what written elements say
* `resolve_said`: a written start tag is accepted, and its names are read as foreseen
-/

namespace XPathBench.Xml

/-- The open elements leave to the tags inside them what written elements say, the innermost first.
-/
structure Agrees (above : List Tag) (enclosing : List OpenElement) : Prop where
  top : enclosing = [] ↔ above = []
  inherited : enclosing.findSome? OpenElement.inherited = readPrefix above none
  bound : ∀ p, namespaceOf? [] enclosing p = readPrefix above (some p)

theorem agrees_nil : Agrees [] [] := ⟨by simp, rfl, fun p => by
  rw [readPrefix]
  split <;> rfl⟩

variable {above : List Tag} {enclosing : List OpenElement} {t : Tag} {tag : StartTag}
  {selfClosing : Bool} {ds os : List WrittenAttribute} {p : Option String} {q u : String}

/-! ## The attributes of a written start tag -/

theorem bindsPrefix_said {a : WrittenAttribute} {d : Option String × String}
    (h : a.Says (declarationSaid d)) : a.bindsPrefix = d.1.isSome := by
  rw [WrittenAttribute.bindsPrefix, h.1]
  obtain ⟨p, u⟩ := d
  cases p <;> rfl

theorem bindsDefault_said {a : WrittenAttribute} {d : Option String × String}
    (h : a.Says (declarationSaid d)) : a.bindsDefault = d.1.isNone := by
  rw [WrittenAttribute.bindsDefault, bindsPrefix_said h, h.1]
  obtain ⟨p, u⟩ := d
  cases p <;> rfl

theorem isPlain_said {a : WrittenAttribute} {b : Attribute} (hb : b.Proper) (h : a.Says b.said) :
    a.isPlain = true :=
  WrittenAttribute.isPlain_iff.mpr (by rw [h.1]; exact ⟨hb.prefix_ne, hb.local_ne⟩)

theorem isPlain_declarationSaid {a : WrittenAttribute} {d : Option String × String}
    (h : a.Says (declarationSaid d)) : a.isPlain = false := by
  rw [WrittenAttribute.isPlain, bindsDefault_said h, bindsPrefix_said h]
  cases d.1 <;> rfl

/-- Written attributes say a tag with declarations: no name comes twice, and what does not declare
a namespace stands in the order of the tag. -/
structure SaySorted (t : Tag) (declarations : List (Option String × String))
    (as : List WrittenAttribute) : Prop where
  plain : List.Forall₂ WrittenAttribute.Says (as.filter WrittenAttribute.isPlain)
    (t.attributes.map Attribute.said)
  names : (as.map WrittenAttribute.name).Nodup
  declares : ∀ a ∈ as, a.isPlain = false → ∃ d ∈ declarations, a.Says (declarationSaid d)
  declared : ∀ d ∈ declarations, ∃ a ∈ as, a.Says (declarationSaid d)

theorem declarationName_inj {p p' : Option String} (h : declarationName p = declarationName p') :
    p = p' := by
  cases p <;> cases p' <;> simp [declarationName] at h ⊢
  exact h

theorem isPlain_congr {a b : WrittenAttribute} (h : a.name = b.name) : a.isPlain = b.isPlain := by
  rw [Bool.eq_iff_iff, WrittenAttribute.isPlain_iff, WrittenAttribute.isPlain_iff, h]

theorem isPlain_of_mem_said (ht : t.Proper)
    (hos : List.Forall₂ WrittenAttribute.Says os (t.attributes.map Attribute.said)) :
    ∀ a ∈ os, a.isPlain = true := by
  intro a ha
  obtain ⟨b, hb, hsay⟩ := says_of_mem_left hos ha
  exact isPlain_said (ht.attributes b hb) hsay

theorem isPlain_of_mem_declared {declarations : List (Option String × String)}
    (hds : List.Forall₂ WrittenAttribute.Says ds (declarations.map declarationSaid)) :
    ∀ a ∈ ds, a.isPlain = false := by
  intro a ha
  obtain ⟨d, _, hsay⟩ := says_of_mem_left hds ha
  exact isPlain_declarationSaid hsay

/-- No name comes twice in a written start tag. -/
theorem nodup_names_said (ht : t.Proper)
    (hds : List.Forall₂ WrittenAttribute.Says ds ((t.declarations above).map declarationSaid))
    (hos : List.Forall₂ WrittenAttribute.Says os (t.attributes.map Attribute.said)) :
    ((ds ++ os).map WrittenAttribute.name).Nodup := by
  rw [List.map_append, List.nodup_append]
  refine ⟨?_, ?_, ?_⟩
  · rw [names_said hds]
    have hnodup : ((t.declarations above).map Prod.fst).Nodup := Scope.nodup_extend ht.consistent
    have hnames := hnodup.map fun _ _ => declarationName_inj
    rwa [List.map_map] at hnames
  · rw [names_said hos]
    exact ht.nodup_written
  · intro n hn m hm hnm
    obtain ⟨a, ha, rfl⟩ := List.mem_map.mp hn
    obtain ⟨b, hb, rfl⟩ := List.mem_map.mp hm
    have hplain := isPlain_congr hnm
    rw [isPlain_of_mem_declared hds a ha, isPlain_of_mem_said ht hos b hb] at hplain
    cases hplain

theorem StartTag.Says.saySorted (ht : t.Proper)
    (h : tag.Says t.name.written (t.said (t.declarations above)) selfClosing) :
    SaySorted t (t.declarations above) (WrittenAttribute.sort tag.attributes) := by
  obtain ⟨ds, os, hsplit, hds, hos⟩ := StartTag.Says.split h
  have hplain := isPlain_of_mem_said ht hos
  have hfilter : tag.attributes.filter WrittenAttribute.isPlain = os := by
    rw [hsplit, filter_append_eq_right (isPlain_of_mem_declared hds) hplain]
  have hperm := WrittenAttribute.perm_sort tag.attributes
  refine ⟨?_, ?_, fun a ha hnot => ?_, fun d hd => ?_⟩
  · rw [WrittenAttribute.filter_sort, hfilter]
    · exact hos
    · rw [hfilter, ← List.pairwise_map (R := PrefixedName.Before), names_said hos,
        List.pairwise_map]
      exact ht.ordered
  · rw [(hperm.map _).nodup_iff, hsplit]
    exact nodup_names_said ht hds hos
  · rw [hperm.mem_iff, hsplit, List.mem_append] at ha
    rcases ha with ha | ha
    · exact says_of_mem_left hds ha
    · rw [hplain a ha] at hnot
      cases hnot
  · obtain ⟨a, ha, hsay⟩ := says_of_mem_right hds hd
    exact ⟨a, hperm.mem_iff.mpr (by rw [hsplit]; exact List.mem_append_left _ ha), hsay⟩

/-! ## What the bindings and the default namespace are -/

variable {as : List WrittenAttribute} {declarations : List (Option String × String)}

theorem SaySorted.exists_prefixed (h : SaySorted t declarations as) {a : WrittenAttribute}
    (ha : a ∈ as.filter WrittenAttribute.bindsPrefix) :
    ∃ q u, (some q, u) ∈ declarations ∧ a.Says (declarationSaid (some q, u)) := by
  obtain ⟨ha, hbinds⟩ := List.mem_filter.mp ha
  have hplain : a.isPlain = false := by rw [WrittenAttribute.isPlain, hbinds]; rfl
  obtain ⟨⟨p, u⟩, hd, hsay⟩ := h.declares a ha hplain
  rw [bindsPrefix_said hsay] at hbinds
  cases p with
  | none => cases hbinds
  | some q => exact ⟨q, u, hd, hsay⟩

/-- The binding that a declaration makes is the one it says. -/
theorem binds_eq_of_said {a : WrittenAttribute} {b : String × String}
    (hsay : a.Says (declarationSaid (some q, u))) (h : StartTag.Binds a b) : b = (q, u) := by
  have hlocal : a.name.localName = q := congrArg PrefixedName.localName hsay.1
  exact Prod.ext (h.1.symm.trans hlocal) (Except.ok.inj (h.2.1.symm.trans hsay.2))

/-- The bindings of attributes that say declarations are the declarations of prefixes. -/
theorem SaySorted.mem_binds_iff (h : SaySorted t declarations as) {own : List (String × String)}
    (hown : List.Forall₂ StartTag.Binds (as.filter WrittenAttribute.bindsPrefix) own) :
    (q, u) ∈ own ↔ (some q, u) ∈ declarations := by
  constructor
  · intro hb
    obtain ⟨a, ha, hbinds⟩ := exists_of_mem_right hown _ hb
    obtain ⟨q', u', hd, hsay⟩ := h.exists_prefixed ha
    cases binds_eq_of_said hsay hbinds
    exact hd
  · intro hd
    obtain ⟨a, ha, hsay⟩ := h.declared _ hd
    have ha : a ∈ as.filter WrittenAttribute.bindsPrefix :=
      List.mem_filter.mpr ⟨ha, bindsPrefix_said hsay⟩
    obtain ⟨b, hb, hbinds⟩ := exists_of_mem_right hown.flip a ha
    rwa [binds_eq_of_said hsay hbinds] at hb

/-- The bindings that a written start tag makes are its declarations of prefixes. -/
theorem exists_binds (ht : t.Proper) (h : SaySorted t (t.declarations above) as) :
    ∃ own, List.Forall₂ StartTag.Binds (as.filter WrittenAttribute.bindsPrefix) own ∧
      ∀ q, own.lookup q = (t.declarations above).lookup (some q) := by
  have hbinds : ∀ a ∈ as.filter WrittenAttribute.bindsPrefix, ∃ b, StartTag.Binds a b := by
    intro a ha
    obtain ⟨q, u, hd, hsay⟩ := h.exists_prefixed ha
    have hu := ht.need_ne (Scope.mem_of_mem_extend hd)
    exact ⟨(q, u), by rw [hsay.1]; rfl, hsay.2, hu⟩
  obtain ⟨own, hown⟩ := exists_forall₂ hbinds
  have hconsistent : Consistent own := fun q u v hu hv =>
    ht.consistent_declarations _ u v ((h.mem_binds_iff hown).mp hu) ((h.mem_binds_iff hown).mp hv)
  refine ⟨own, hown, fun q => Option.ext fun u => ?_⟩
  rw [hconsistent.lookup_eq_some_iff, ht.consistent_declarations.lookup_eq_some_iff,
    h.mem_binds_iff hown]

theorem SaySorted.exists_default (h : SaySorted t declarations as) {a : WrittenAttribute}
    (ha : a ∈ as.filter WrittenAttribute.bindsDefault) :
    ∃ u, (none, u) ∈ declarations ∧ a.Says (declarationSaid (none, u)) := by
  obtain ⟨ha, hdefault⟩ := List.mem_filter.mp ha
  have hplain : a.isPlain = false := by rw [WrittenAttribute.isPlain, hdefault]; simp
  obtain ⟨⟨p, u⟩, hd, hsay⟩ := h.declares a ha hplain
  rw [bindsDefault_said hsay] at hdefault
  cases p with
  | none => exact ⟨u, hd, hsay⟩
  | some q => cases hdefault

/-- The default namespace that a written start tag declares. -/
theorem mapM_defaults (ht : t.Proper) (h : SaySorted t (t.declarations above) as) :
    (as.filter WrittenAttribute.bindsDefault).tail = [] ∧
      (as.filter WrittenAttribute.bindsDefault).head?.mapM (fun a => resolveValue a.value) =
        .ok ((t.declarations above).lookup none) := by
  have hall : ∀ a ∈ as.filter WrittenAttribute.bindsDefault, ∃ u,
      (none, u) ∈ t.declarations above ∧ a.Says (declarationSaid (none, u)) :=
    fun a ha => h.exists_default ha
  have hnames : ((as.filter WrittenAttribute.bindsDefault).map WrittenAttribute.name).Nodup :=
    h.names.sublist (List.filter_sublist.map _)
  cases hlist : as.filter WrittenAttribute.bindsDefault with
  | nil =>
    refine ⟨rfl, ?_⟩
    cases hl : (t.declarations above).lookup none with
    | none => rfl
    | some u =>
      obtain ⟨a, ha, hsay⟩ := h.declared _ (mem_of_lookup hl)
      have ha : a ∈ as.filter WrittenAttribute.bindsDefault :=
        List.mem_filter.mpr ⟨ha, bindsDefault_said hsay⟩
      rw [hlist] at ha
      cases ha
  | cons a rest =>
    rw [hlist] at hall hnames
    obtain ⟨u, hd, hsay⟩ := hall a (by simp)
    have hrest : rest = [] := by
      cases rest with
      | nil => rfl
      | cons b rest =>
        obtain ⟨v, _, hsay'⟩ := hall b (by simp)
        rw [List.map_cons, List.map_cons, hsay.1, hsay'.1] at hnames
        exact absurd hnames (by simp [declarationSaid])
    subst hrest
    refine ⟨rfl, ?_⟩
    rw [ht.consistent_declarations.lookup_eq_some_iff.mpr hd]
    show (some <$> resolveValue a.value) = _
    rw [hsay.2]
    rfl

/-! ## What the names are -/

section Names

variable {own : List (String × String)}

theorem namespaceOf?_own (ht : t.Proper) (h : Agrees above enclosing)
    (hown : ∀ q, own.lookup q = (t.declarations above).lookup (some q)) :
    namespaceOf? own enclosing q = t.readPrefix above (some q) := by
  rw [namespaceOf?_eq_or, h.bound, hown, Tag.readPrefix]
  cases hl : (t.declarations above).lookup (some q) with
  | none => rfl
  | some u =>
    have hu := ht.need_ne (Scope.mem_of_mem_extend (mem_of_lookup hl))
    exact (declared_of_ne hu).symm

/-- A reader knows every prefix that is used. -/
theorem readPrefix_isSome (habove : ∀ t ∈ above, t.Proper) (ht : t.Proper)
    (hneed : (some q, u) ∈ t.needs) : (t.readPrefix above (some q)).isSome = true := by
  have hu := ht.need_ne hneed
  rw [Tag.readPrefix, lookup_declarations habove ht (ht.lookup_needs hneed)]
  split
  · next hhead =>
    rw [head?_bind_declared habove hu] at hhead
    show (readPrefix above (some q)).isSome = true
    rw [readPrefix]
    split
    · next hq =>
      subst hq
      rw [readXml, if_neg (ne_nil_of_head?_needsFor hhead)]
      rfl
    · rw [hhead]
      rfl
  · rw [Option.elim_some, declared_of_ne hu]
    rfl

/-- The attributes that a written start tag opens an element with. -/
theorem becomes_reread (habove : ∀ t ∈ above, t.Proper) (ht : t.Proper)
    (h : Agrees above enclosing) (hsaid : SaySorted t (t.declarations above) as)
    (hown : ∀ q, own.lookup q = (t.declarations above).lookup (some q)) :
    List.Forall₂ (StartTag.Becomes (own ++ StartTag.allBindings own enclosing) enclosing)
      (as.filter WrittenAttribute.isPlain) (t.attributes.map (t.rereadAttribute above)) := by
  have hboth := (List.forall₂_and_left (p := fun b => b ∈ t.attributes) _ _).mpr
    ⟨fun _ hb => hb, (List.forall₂_map_right_iff.mp hsaid.plain).flip⟩
  rw [List.forall₂_map_right_iff]
  refine (hboth.imp fun b a hab => ?_).flip
  obtain ⟨hb, hname, hvalue⟩ := hab
  have hpre : a.name.prefixName = b.name.prefixName := congrArg PrefixedName.prefixName hname
  have hread : ∀ q, a.name.prefixName = some q → ∃ v, t.readPrefix above (some q) = some v := by
    intro q hq
    obtain ⟨u, hneed, _⟩ := ht.need_attribute hb (hpre.symm.trans hq)
    exact Option.isSome_iff_exists.mp (readPrefix_isSome habove ht hneed)
  refine ⟨hpre.symm, (congrArg PrefixedName.localName hname).symm, hvalue, ?_, fun hsome => ?_⟩
  · show b.name.prefixName.bind _ = _
    rw [← hpre]
    refine Option.bind_congr fun q hq => ?_
    obtain ⟨v, hv⟩ := hread q hq
    rw [hv, namespaceOf?_attribute ((namespaceOf?_own ht h hown).trans hv)]
  · show (b.name.prefixName.bind _).isSome = true
    obtain ⟨q, hq⟩ := Option.isSome_iff_exists.mp hsome
    obtain ⟨v, hv⟩ := hread q hq
    rw [← hpre, hq, Option.bind_some, hv]
    rfl

theorem nameUri_said (ht : t.Proper) (h : Agrees above enclosing)
    (hown : ∀ q, own.lookup q = (t.declarations above).lookup (some q))
    (hname : tag.name = t.name.written) :
    tag.nameUri own ((t.declarations above).lookup none) enclosing =
      t.readPrefix above t.name.prefixName := by
  have hpre : tag.name.prefixName = t.name.prefixName := congrArg PrefixedName.prefixName hname
  unfold StartTag.nameUri
  rw [hpre]
  cases t.name.prefixName with
  | some q => exact namespaceOf?_own ht h hown
  | none =>
    rw [Tag.readPrefix]
    cases (t.declarations above).lookup none with
    | some u => rfl
    | none => exact h.inherited

theorem inheritedFrom_eq {o : Option String} : tag.inheritedFrom o =
    if tag.name.prefixName = none then o.bind declared else none := by
  unfold StartTag.inheritedFrom
  cases tag.name.prefixName <;> cases o <;> rfl

/-- A name with a prefix needs nothing of names without. -/
theorem lookup_needs_none (ht : t.Proper) (hp : t.name.prefixName = some q) :
    t.needs.lookup none = none := by
  obtain ⟨u, hneed, _⟩ := ht.need_name
  cases hl : t.needs.lookup none with
  | none => rfl
  | some v =>
    have hv := Tag.mem_needs_none_iff.mp (mem_of_lookup hl)
    rw [hneed, hp] at hv
    cases hv

/-- The default namespace that an element leaves to the elements inside it is read as foreseen. -/
theorem inherited_said (habove : ∀ t ∈ above, t.Proper) (ht : t.Proper)
    (h : Agrees above enclosing) (hname : tag.name = t.name.written) :
    (tag.inheritedFrom ((t.declarations above).lookup none)).or
      (enclosing.findSome? OpenElement.inherited) = readPrefix (t :: above) none := by
  rw [h.inherited, readPrefix, readPrefix, needsFor_cons, inheritedFrom_eq,
    congrArg PrefixedName.prefixName hname]
  show Option.or (if t.name.prefixName = none then _ else _) _ = _
  cases hp : t.name.prefixName with
  | some q =>
    rw [lookup_needs_none ht hp, if_neg (by simp)]
    rfl
  | none =>
    obtain ⟨u, hneed, _⟩ := ht.need_name
    have hmem := Tag.mem_needs_iff.mpr (.inl hneed.symm)
    rw [hp] at hmem
    rw [ht.lookup_needs hmem, lookup_declarations habove ht (ht.lookup_needs hmem),
      Option.elim_some, if_pos rfl]
    by_cases hu : u = ""
    · subst hu
      rw [List.find?_cons_of_neg (by simp)]
      split <;> rfl
    · rw [List.find?_cons_of_pos (by simpa using hu)]
      split
      · next hprovided =>
        exact (readPrefix_none_of_provided hu hprovided).trans (declared_of_ne hu)
      · rw [Option.bind_some, declared_of_ne hu]
        rfl

theorem readXml_cons : readXml (t :: above) =
    some ((needsFor (some "xml") (t :: above)).head?.elim xmlUri fun u =>
      if KeepsXml (t :: above) u then xmlUri else u) :=
  if_neg (List.cons_ne_nil _ _)

theorem keepsXml_cons (habove : above ≠ []) : KeepsXml (t :: above) u ↔
    (∀ v ∈ t.needs.lookup (some "xml"), v = u) ∧ KeepsXml above u := by
  obtain ⟨s, rest, rfl⟩ := List.exists_cons_of_ne_nil habove
  rw [KeepsXml, KeepsXml, List.getLast?_cons_cons, needsFor_cons]
  cases t.needs.lookup (some "xml") <;> simp [and_left_comm]

theorem lookup_cons_filter {v : String} (hq : q ≠ u) :
    List.lookup q ((u, v) :: own.filter fun b => b.1 != u) = own.lookup q := by
  rw [List.lookup_cons, beq_eq_false_iff_ne.mpr hq]
  dsimp only
  induction own with
  | nil => rfl
  | cons b own ih =>
    rw [List.filter_cons]
    split
    · rw [List.lookup_cons, List.lookup_cons, ih]
    · next hb =>
      have hb : b.1 = u := by simpa using hb
      rw [ih, List.lookup_cons, beq_eq_false_iff_ne.mpr (hb ▸ hq)]

/-- The outermost tag binds the prefix `xml` itself. -/
theorem bound_xml_outermost :
    ((StartTag.allBindings own []).lookup "xml").or (readPrefix [] (some "xml")) =
      readPrefix [t] (some "xml") := by
  have hkeeps {v : String} (hv : t.needs.lookup (some "xml") = some v) : KeepsXml [t] v := by
    simp [KeepsXml, hv, needsFor]
  rw [readPrefix, readPrefix, if_pos rfl, if_pos rfl, readXml_cons, needsFor_cons]
  cases hl : t.needs.lookup (some "xml") with
  | none => rfl
  | some v => simp [StartTag.allBindings, hkeeps hl]

theorem bound_xml (habove : ∀ t ∈ above, t.Proper) (ht : t.Proper) (hinner : above ≠ [])
    (hown : ∀ q, own.lookup q = (t.declarations above).lookup (some q)) :
    (own.lookup "xml").or (readPrefix above (some "xml")) =
      readPrefix (t :: above) (some "xml") := by
  rw [hown, readPrefix, readPrefix, if_pos rfl, if_pos rfl, readXml_cons, readXml, if_neg hinner,
    needsFor_cons]
  cases hl : t.needs.lookup (some "xml") with
  | none =>
    have hkeeps {v : String} : KeepsXml (t :: above) v ↔ KeepsXml above v := by
      rw [keepsXml_cons hinner, hl]
      simp
    rw [lookup_declarations_none ht hl]
    simp only [Option.elim_none, hkeeps, Option.none_or]
  | some u =>
    have hkeeps : KeepsXml (t :: above) u ↔ KeepsXml above u := by
      rw [keepsXml_cons hinner, hl]
      simp
    rw [lookup_declarations habove ht hl]
    simp only [Option.elim_some, List.head?_cons, hkeeps]
    have hu := ht.need_ne (mem_of_lookup hl)
    split
    · next hprovided =>
      rw [(head?_bind_declared habove hu).mp hprovided]
      rfl
    · next hne =>
      rw [if_neg fun hk => hne ((head?_bind_declared habove hu).mpr hk.head?)]
      rfl

theorem bound_ne (habove : ∀ t ∈ above, t.Proper) (ht : t.Proper) (hq : q ≠ "xml")
    (hown : ∀ q, own.lookup q = (t.declarations above).lookup (some q)) :
    (own.lookup q).or (readPrefix above (some q)) = readPrefix (t :: above) (some q) := by
  rw [hown, readPrefix, readPrefix, if_neg hq, if_neg hq, needsFor_cons]
  cases hl : t.needs.lookup (some q) with
  | none =>
    rw [lookup_declarations_none ht hl]
    rfl
  | some u =>
    have hu := ht.need_ne (mem_of_lookup hl)
    rw [lookup_declarations habove ht hl]
    split
    · next hprovided => exact (head?_bind_declared habove hu).mp hprovided
    · rfl

/-- The bindings that an element leaves to the elements inside it are read as foreseen. -/
theorem bound_said (habove : ∀ t ∈ above, t.Proper) (ht : t.Proper) (h : Agrees above enclosing)
    (hown : ∀ q, own.lookup q = (t.declarations above).lookup (some q)) :
    ((StartTag.allBindings own enclosing).lookup q).or (namespaceOf? [] enclosing q) =
      readPrefix (t :: above) (some q) := by
  rw [h.bound]
  cases enclosing with
  | nil =>
    obtain rfl := h.top.mp rfl
    by_cases hq : q = "xml"
    · subst hq
      exact bound_xml_outermost
    · rw [show (StartTag.allBindings own []).lookup q = own.lookup q from lookup_cons_filter hq]
      exact bound_ne habove ht hq hown
  | cons e outer =>
    have hinner : above ≠ [] := fun habove' => List.cons_ne_nil _ _ (h.top.mpr habove')
    show (own.lookup q).or _ = _
    by_cases hq : q = "xml"
    · subst hq
      exact bound_xml habove ht hinner hown
    · exact bound_ne habove ht hq hown

end Names

theorem findSome?_cons_eq_or {α β : Type} {f : α → Option β} {a : α} {l : List α} :
    (a :: l).findSome? f = (f a).or (l.findSome? f) := by
  rw [List.findSome?_cons]
  cases f a <;> rfl

/-- A written start tag is accepted, its names are read as foreseen, and it leaves to the elements
inside what the element says. -/
theorem resolve_said (habove : ∀ t ∈ above, t.Proper) (ht : t.Proper) (h : Agrees above enclosing)
    (hsay : tag.Says t.name.written (t.said (t.declarations above)) selfClosing) :
    ∃ e, tag.resolve enclosing = .ok e ∧ e.written = t.name.written ∧
      { e.tag with bindings := [] } = t.reread above ∧ e.children = [] ∧
        Agrees (t :: above) (e :: enclosing) := by
  have hsaid := StartTag.Says.saySorted ht hsay
  obtain ⟨own, hbinds, hown⟩ := exists_binds ht hsaid
  obtain ⟨honce, hdeclared⟩ := mapM_defaults ht hsaid
  have hnames {p : WrittenAttribute → Bool} :
      ((WrittenAttribute.sort tag.attributes).filter p).Pairwise fun a b => a.name ≠ b.name :=
    List.pairwise_map.mp (hsaid.names.sublist (List.filter_sublist.map _))
  have hname := nameUri_said ht h hown hsay.name_eq
  have hbound : tag.name.prefixName.isSome = true →
      (t.readPrefix above t.name.prefixName).isSome = true := by
    intro hsome
    rw [congrArg PrefixedName.prefixName hsay.name_eq] at hsome
    obtain ⟨q, hq⟩ := Option.isSome_iff_exists.mp hsome
    have hq : t.name.prefixName = some q := hq
    obtain ⟨u, hneed, _⟩ := ht.need_name
    rw [hq] at hneed ⊢
    exact readPrefix_isSome habove ht (Tag.mem_needs_iff.mpr (.inl hneed.symm))
  refine ⟨_, StartTag.resolve_eq_ok_iff.mpr ⟨own, _, _, _,
    WrittenAttribute.firstRepeated?_eq_none_of_pairwise hnames,
    WrittenAttribute.firstRepeated?_eq_none_of_pairwise hnames, honce, hdeclared, hbinds, rfl,
    hname.symm ▸ hbound, becomes_reread habove ht h hsaid hown, rfl⟩, hsay.name_eq, ?_, rfl,
    ⟨by simp, ?_, fun q => ?_⟩⟩
  · rw [hname, hsay.name_eq]
    rfl
  · rw [findSome?_cons_eq_or]
    exact inherited_said habove ht h hsay.name_eq
  · rw [namespaceOf?, findSome?_cons_eq_or]
    exact bound_said habove ht h hown

end XPathBench.Xml

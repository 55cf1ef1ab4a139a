import XPathBench.Proofs.Xml.Scopes

/-!
# Tags as pieces

The start tag of an element says its name, then the declarations that it makes, then its attributes.

* `declarationName`: the attribute that declares a prefix
* `Tag.said`: what a start tag says
* `inside_toList`: the text of a start tag
-/

namespace XPathBench.Xml

open Reader Grammar

/-- The name of the attribute that declares a prefix, or the default namespace. -/
def declarationName : Option String → PrefixedName
  | some p => ⟨some "xmlns", p⟩
  | none => ⟨none, "xmlns"⟩

/-- What a declaration says in a tag. -/
def declarationSaid (d : Option String × String) : PrefixedName × String :=
  (declarationName d.1, d.2)

/-- What an attribute says in a tag. -/
def Attribute.said (a : Attribute) : PrefixedName × String := (a.name.written, a.value)

/-- What a start tag says with some declarations. -/
def Tag.said (t : Tag) (declarations : List (Option String × String)) :
    List (PrefixedName × String) :=
  declarations.map declarationSaid ++ t.attributes.map Attribute.said

variable {t : Tag} {scope : Scope} {declarations : List (Option String × String)}
  {rest : List Char}

theorem written_toList {name : PrefixedName} {value : String} :
    " ".toList ++ (written name.text value).toList = attributeText (name, value) := by
  simp [written, attributeText, escapeValue]

theorem declarationMarkup_eq (d : Option String × String) :
    declarationMarkup d = written (declarationName d.1).text d.2 := by
  obtain ⟨p, u⟩ := d
  cases p with
  | none => rfl
  | some p => exact congrArg (written · u) (String.toList_inj.mp (by simp [declarationName,
      PrefixedName.text]))

/-- A name whose prefix stands for a namespace is written with it. -/
theorem Name.qualified_eq {n : Name} (h : n.prefixName.isSome = true → n.uri.isSome = true) :
    n.qualified = n.written.text := by
  obtain ⟨uri, p, l⟩ := n
  cases p with
  | none => cases uri <;> rfl
  | some p =>
    cases uri with
    | none => exact absurd (h rfl) (by simp)
    | some uri => rfl

theorem Tag.said_text (ht : t.Proper) :
    (String.join (declarations.map fun d => " " ++ declarationMarkup d) ++
      String.join (t.attributes.map fun a => " " ++ a.markup)).toList =
      (t.said declarations).flatMap attributeText := by
  simp only [Tag.said, String.toList_append, String.toList_join, List.flatMap_map,
    List.flatMap_append]
  congr 1
  · refine List.flatMap_congr fun d _ => ?_
    rw [declarationMarkup_eq, written_toList]
    rfl
  · refine List.flatMap_congr fun a ha => ?_
    rw [Attribute.markup, Name.qualified_eq (ht.attributes a ha).name.bound, written_toList]
    rfl

/-- The text of a start tag. -/
theorem inside_toList (ht : t.Proper) {selfClosing : Bool} :
    '<' :: ((t.inside declarations).toList ++ tagEnding selfClosing) =
      startTagText t.name.written (t.said declarations) selfClosing := by
  rw [startTagText, ← Tag.said_text ht, Tag.inside, Name.qualified_eq ht.name.bound,
    String.append_assoc, String.toList_append]

theorem leaf_toList (ht : t.Proper) :
    ("<" ++ t.inside declarations ++ "/>").toList =
      startTagText t.name.written (t.said declarations) true := by
  rw [← inside_toList ht]
  simp [tagEnding]

theorem opening_toList (ht : t.Proper) :
    ("<" ++ t.inside declarations ++ ">").toList =
      startTagText t.name.written (t.said declarations) false := by
  rw [← inside_toList ht]
  simp [tagEnding]

theorem closing_toList (ht : t.Proper) :
    ("</" ++ t.name.qualified ++ ">").toList = endTagText t.name.written := by
  rw [Name.qualified_eq ht.name.bound]
  simp [endTagText]

/-- The attributes of a start tag that was written: the declarations come first. -/
theorem StartTag.Says.split {tag : StartTag} {selfClosing : Bool}
    (h : tag.Says t.name.written (t.said declarations) selfClosing) :
    ∃ ds os, tag.attributes = ds ++ os ∧
      List.Forall₂ WrittenAttribute.Says ds (declarations.map declarationSaid) ∧
      List.Forall₂ WrittenAttribute.Says os (t.attributes.map Attribute.said) := by
  have has := h.attributes
  rw [Tag.said] at has
  exact ⟨_, _, (List.take_append_drop _ _).symm, List.forall₂_take_append _ _ _ has,
    List.forall₂_drop_append _ _ _ has⟩

/-! ## Attributes that say what was written -/

section Said

variable {α : Type} {f : α → PrefixedName × String} {l : List α} {as : List WrittenAttribute}

theorem says_of_mem_left (h : List.Forall₂ WrittenAttribute.Says as (l.map f))
    {a : WrittenAttribute} (ha : a ∈ as) : ∃ x ∈ l, a.Says (f x) := by
  obtain ⟨s, hs, hsay⟩ := exists_of_mem_right h.flip a ha
  obtain ⟨x, hx, rfl⟩ := List.mem_map.mp hs
  exact ⟨x, hx, hsay⟩

theorem says_of_mem_right (h : List.Forall₂ WrittenAttribute.Says as (l.map f)) {x : α}
    (hx : x ∈ l) : ∃ a ∈ as, a.Says (f x) :=
  exists_of_mem_right h _ (List.mem_map_of_mem hx)

theorem names_said (h : List.Forall₂ WrittenAttribute.Says as (l.map f)) :
    as.map WrittenAttribute.name = l.map fun x => (f x).1 := by
  rw [← List.forall₂_eq_eq_eq, List.forall₂_map_left_iff, List.forall₂_map_right_iff]
  rw [List.forall₂_map_right_iff] at h
  exact h.imp fun _ _ hsay => hsay.1

theorem filter_append_eq_right {p : α → Bool} {ds os : List α} (hds : ∀ d ∈ ds, p d = false)
    (hos : ∀ o ∈ os, p o = true) : (ds ++ os).filter p = os := by
  rw [List.filter_append, List.filter_eq_nil_iff.mpr (fun d hd => by simp [hds d hd]),
    List.nil_append, List.filter_eq_self.mpr hos]

end Said

/-! ## What names need -/

theorem Tag.Proper.lookup_needs (ht : t.Proper) {p : Option String} {u : String}
    (h : (p, u) ∈ t.needs) : t.needs.lookup p = some u :=
  Consistent.lookup_eq_some_iff ht.consistent |>.mpr h

/-- The name of an element needs its namespace, or that there is none. -/
theorem Tag.Proper.need_name (ht : t.Proper) :
    ∃ u, t.need = (t.name.prefixName, u) ∧ declared u = t.name.uri := by
  cases huri : t.name.uri with
  | some u =>
    have hne : u ≠ "" := fun h => ht.name.uri_ne (huri.trans (congrArg some h))
    exact ⟨u, by rw [Tag.need, huri], declared_of_ne hne⟩
  | none =>
    have hp : t.name.prefixName = none := by
      cases hp : t.name.prefixName with
      | none => rfl
      | some p =>
        have := ht.name.bound (by rw [hp]; rfl)
        simp [huri] at this
    exact ⟨"", by rw [Tag.need, huri, hp], rfl⟩

/-- The name of an attribute with a prefix needs its namespace. -/
theorem Tag.Proper.need_attribute (ht : t.Proper) {a : Attribute} (ha : a ∈ t.attributes)
    {p : String} (hp : a.name.prefixName = some p) :
    ∃ u, (some p, u) ∈ t.needs ∧ declared u = a.name.uri := by
  have hproper := (ht.attributes a ha).name
  obtain ⟨u, hu⟩ := Option.isSome_iff_exists.mp (hproper.bound (by rw [hp]; rfl))
  have hne : u ≠ "" := fun h => hproper.uri_ne (hu.trans (congrArg some h))
  refine ⟨u, Tag.mem_needs_iff.mpr (.inr ⟨a, ha, Attribute.need?_eq_some_iff.mpr
    ⟨p, u, hp, hu, rfl⟩⟩), ?_⟩
  rw [declared_of_ne hne, hu]

/-! ## Names that can be written -/

theorem isNcName_xmlns : IsNcName "xmlns" := by decide

theorem Tag.Proper.isNcName_need (ht : t.Proper) {p u : String} (h : (some p, u) ∈ t.needs) :
    IsNcName p := by
  rcases Tag.mem_needs_iff.mp h with h | ⟨a, ha, h⟩
  · exact ht.name.valid.ofPrefix p (Tag.need_eq_some_iff.mp h.symm).1
  · obtain ⟨q, v, hq, _, heq⟩ := Attribute.need?_eq_some_iff.mp h
    cases heq
    exact (ht.attributes a ha).name.valid.ofPrefix p hq

theorem Tag.Proper.said_valid (ht : t.Proper) (hd : ∀ d ∈ declarations, d ∈ t.needs) :
    ∀ s ∈ t.said declarations, s.1.Valid := by
  intro s hs
  rcases List.mem_append.mp hs with hs | hs
  · obtain ⟨⟨p, u⟩, hmem, rfl⟩ := List.mem_map.mp hs
    cases p with
    | none => exact ⟨nofun, isNcName_xmlns⟩
    | some p =>
      refine ⟨fun q hq => ?_, ht.isNcName_need (hd _ hmem)⟩
      obtain rfl := Option.some.inj (Option.mem_def.mp hq)
      exact isNcName_xmlns
  · obtain ⟨a, ha, rfl⟩ := List.mem_map.mp hs
    exact (ht.attributes a ha).name.valid

/-- The start tag of an element is read back. -/
theorem finds_startTag_said (ht : t.Proper) (scope : Scope) (selfClosing : Bool)
    (rest : List Char) :
    ∃ tag, startTag.Finds
        (startTagText t.name.written (t.said (scope.extend t.needs).2) selfClosing ++ rest)
        (.opening tag) rest ∧
      tag.Says t.name.written (t.said (scope.extend t.needs).2) selfClosing :=
  finds_startTag ht.name.valid
    (ht.said_valid fun _ hd => Scope.mem_of_mem_extend hd)

end XPathBench.Xml

import XPathBench.Proofs.XPath.Fragments
import XPathBench.Proofs.Xml.Scopes

/-!
# Markup of parts

The markup of an element consists of its start tag, with the markup of its attributes, of what its
children contribute, and of its end tag. A child contributes its own markup; but the tags of an
element, and of those inside it, leave declarations out that are in scope, and where the default
namespace is in scope, the tag of an element without namespace takes it back.

* `Omits`, `OmitsOrTakesBack`: declarations in a tag inside others, and in a tag on its own
* `Contributes`: what a node contributes to the markup of the elements around it
* `Place.Composed`: the markup of an element by that of its parts
* `markup_composed`: the markup of elements is so, and that of roots
-/

namespace XPathBench.Xml

/-! ## Declarations in one tag -/

/-- Of the declarations that a tag makes on its own it makes all but some that are in scope. -/
def Omits (scope : Scope) (own made : List (Option String × String)) : Prop :=
  made.Sublist own ∧ ∀ d ∈ own, d ∉ made → scope.lookup d.1 = some d.2

/-- The tag omits declarations that are in scope; and if it has no namespace and there is a default
namespace in scope, it may take that back first. -/
def OmitsOrTakesBack (scope : Scope) (tag : Tag) (own made : List (Option String × String)) :
    Prop :=
  Omits scope own made ∨ tag.name.uri = none ∧ (scope.lookup none).isSome = true ∧
    ∃ kept, made = (none, "") :: kept ∧ Omits scope own kept

namespace Scope

/-- What the scope tells of a prefix the other one tells too. -/
def Within (alone inside : Scope) : Prop :=
  ∀ p, alone.lookup p = none ∨ alone.lookup p = inside.lookup p

variable {alone inside : Scope} {need d : Option String × String}
  {needs : List (Option String × String)}

theorem within_nil : Within [] inside := fun _ => .inl rfl

theorem Within.cons (h : alone.Within inside) : Within (d :: alone) (d :: inside) := by
  intro p
  rw [lookup_cons, lookup_cons]
  split
  · exact .inr rfl
  · exact h p

theorem Within.cons_left (h : alone.Within inside) (hd : inside.provides d = true) :
    Within (d :: alone) inside := by
  intro p
  rw [lookup_cons]
  split
  next hp => exact .inr (hp ▸ (provides_iff.mp hd).symm)
  next => exact h p

theorem Within.cons_right (h : alone.Within inside) (hd : alone.provides d = true) :
    alone.Within (d :: inside) := by
  intro p
  rw [lookup_cons]
  split
  next hp => exact .inr (hp ▸ provides_iff.mp hd)
  next => exact h p

/-- Inside a tag both scopes tell what the tag needs. -/
theorem Within.inTag (h : alone.Within inside) (hneeds : Consistent needs) :
    Within (alone.extend needs).1 (inside.extend needs).1 := by
  intro p
  rw [lookup_extend hneeds, lookup_extend hneeds]
  cases needs.lookup p with
  | none => exact h p
  | some u => exact .inr rfl

/-- What is provided by the narrower scope only is that there is no namespace. -/
theorem Within.eq_empty (h : alone.Within inside) (halone : alone.provides need = true)
    (hinside : ¬ inside.provides need = true) : need.2 = "" := by
  rw [provides_iff] at halone hinside
  have hnone : alone.lookup need.1 = none := by
    apply (h need.1).resolve_right
    intro heq
    exact hinside (heq.symm.trans halone)
  by_contra hne
  rw [hnone, declared_of_ne hne] at halone
  cases halone

/-- Where one scope is within another, fewer declarations are made in the latter for one more need,
if that is not provided by the former only. -/
theorem Within.sublist_extend_cons (h : alone.Within inside)
    (hneed : alone.provides need = true → inside.provides need = true)
    (hrest : ∀ {alone inside : Scope}, alone.Within inside →
      (inside.extend needs).2.Sublist (alone.extend needs).2) :
    (inside.extend (need :: needs)).2.Sublist (alone.extend (need :: needs)).2 := by
  rw [Scope.extend, Scope.extend]
  by_cases hinside : inside.provides need = true
  · rw [if_pos hinside]
    by_cases halone : alone.provides need = true
    · rw [if_pos halone]
      exact hrest h
    · rw [if_neg halone]
      exact (hrest (h.cons_left hinside)).cons need
  · rw [if_neg hinside, if_neg fun halone => hinside (hneed halone)]
    exact (hrest h.cons).cons_cons need

theorem Within.sublist_extend (h : alone.Within inside) (hneeds : ∀ d ∈ needs, d.2 ≠ "") :
    (inside.extend needs).2.Sublist (alone.extend needs).2 := by
  induction needs generalizing alone inside with
  | nil => exact .slnil
  | cons need needs ih =>
    obtain ⟨hneed, hrest⟩ := List.forall_mem_cons.mp hneeds
    apply h.sublist_extend_cons
    · intro halone
      by_contra hinside
      exact hneed (h.eq_empty halone hinside)
    · intro alone inside h
      exact ih h hrest

/-- A declaration is left out only if it is in scope. -/
theorem Within.lookup_of_omitted (h : alone.Within inside) (hneeds : Consistent needs)
    (hown : d ∈ (alone.extend needs).2) (hmade : d ∉ (inside.extend needs).2) :
    inside.lookup d.1 = some d.2 := by
  obtain ⟨hd, halone⟩ := (mem_extend_iff hneeds).mp hown
  have hinside : inside.lookup d.1 = declared d.2 := by
    by_contra hne
    exact hmade ((mem_extend_iff hneeds).mpr ⟨hd, hne⟩)
  rw [hinside]
  apply declared_of_ne
  intro hempty
  rw [hempty] at halone hinside
  rcases h d.1 with hnone | heq
  · exact halone hnone
  · exact halone (heq.trans hinside)

end Scope

theorem Attribute.Proper.need?_ne {a : Attribute} (ha : a.Proper) {d : Option String × String}
    (hd : a.need? = some d) : d.2 ≠ "" := by
  obtain ⟨p, u, -, huri, rfl⟩ := Attribute.need?_eq_some_iff.mp hd
  rintro rfl
  exact ha.name.uri_ne huri

/-- A tag needs no empty namespace, except for a name without namespace. -/
theorem Tag.Proper.need_of_empty {tag : Tag} (htag : tag.Proper) (h : tag.need.2 = "") :
    tag.need = (none, "") ∧ tag.name.uri = none := by
  unfold Tag.need at h ⊢
  cases huri : tag.name.uri with
  | none => exact ⟨rfl, rfl⟩
  | some u =>
    rw [huri] at h
    obtain rfl : u = "" := h
    exact absurd huri htag.name.uri_ne

/-- The declarations of a tag on its own, and inside elements that have made others. -/
theorem omitsOrTakesBack_extend {alone inside : Scope} {tag : Tag} (htag : tag.Proper)
    (h : alone.Within inside) :
    OmitsOrTakesBack inside tag (alone.extend tag.needs).2 (inside.extend tag.needs).2 := by
  have homitted {d : Option String × String} := h.lookup_of_omitted (d := d) htag.consistent
  have hrest : ∀ d ∈ tag.attributes.filterMap Attribute.need?, d.2 ≠ "" := by
    intro d hd
    obtain ⟨a, ha, hneed⟩ := List.mem_filterMap.mp hd
    exact (htag.attributes a ha).need?_ne hneed
  by_cases hneed : alone.provides tag.need = true → inside.provides tag.need = true
  · exact .inl ⟨h.sublist_extend_cons hneed fun h => h.sublist_extend hrest, fun d => homitted⟩
  -- The need of the name is provided on its own only: the default namespace is taken back.
  obtain ⟨halone, hinside⟩ := Classical.not_imp.mp hneed
  obtain ⟨hempty, huri⟩ := htag.need_of_empty (h.eq_empty halone hinside)
  have hsome : (inside.lookup none).isSome = true := by
    rw [Scope.provides_iff, hempty] at hinside
    exact Option.isSome_iff_ne_none.mpr hinside
  have hown : (alone.extend tag.needs).2 =
      (alone.extend (tag.attributes.filterMap Attribute.need?)).2 := by
    rw [Tag.needs, Scope.extend, if_pos halone]
  have hmade : (inside.extend tag.needs).2 = tag.need ::
      (Scope.extend (tag.need :: inside) (tag.attributes.filterMap Attribute.need?)).2 := by
    rw [Tag.needs, Scope.extend, if_neg hinside]
  refine .inr ⟨huri, hsome, _, hmade.trans (congrArg (· :: _) hempty), ?_,
    fun d hd hkept => homitted hd ?_⟩
  · rw [hown]
    exact (h.cons_right halone).sublist_extend hrest
  · rw [hmade, List.mem_cons]
    rintro (rfl | hmem)
    · exact ((Scope.mem_extend_iff htag.consistent).mp hd).2 (Scope.provides_iff.mp halone)
    · exact hkept hmem

/-! ## Nodes inside elements -/

/-- The markup of an element with the given declarations around what its children contribute. -/
def Tag.around (tag : Tag) (declarations : List (Option String × String)) : List String → String
  | [] => "<" ++ tag.inside declarations ++ "/>"
  | contributions => "<" ++ tag.inside declarations ++ ">" ++ String.join contributions ++
      ("</" ++ tag.name.qualified ++ ">")

section

variable (allowed : Scope → Tag → List (Option String × String) → List (Option String × String) →
  Prop)

mutual

/-- The own markup of a node, and what it contributes to the markup of elements that have made the
declarations in scope: the two differ only in the declarations of tags, as far as is allowed. -/
inductive Contributes : Scope → Node → String → String → Prop where
  | text {scope value} :
    Contributes scope (.text value) (Node.text value).markup (Node.text value).markup
  | comment {scope value} :
    Contributes scope (.comment value) (Node.comment value).markup (Node.comment value).markup
  | instruction {scope target value} : Contributes scope (.instruction target value)
    (Node.instruction target value).markup (Node.instruction target value).markup
  | element {scope tag children own made owns contributions} : allowed scope tag own made →
    AllContribute (made.reverse ++ scope) children owns contributions →
    Contributes scope (.element tag children) (tag.around own owns) (tag.around made contributions)

/-- The own markup of nodes, and what they contribute. -/
inductive AllContribute : Scope → List Node → List String → List String → Prop where
  | nil {scope} : AllContribute scope [] [] []
  | cons {scope n own contribution nodes owns contributions} :
    Contributes scope n own contribution → AllContribute scope nodes owns contributions →
    AllContribute scope (n :: nodes) (own :: owns) (contribution :: contributions)

end

end

/-- What an element without content contributes differs from its own markup in its declarations. -/
theorem Contributes.exists_of_leaf {allowed : Scope → Tag → List (Option String × String) →
    List (Option String × String) → Prop} {scope : Scope} {tag : Tag} {markup contribution : String}
    (h : Contributes allowed scope (.element tag []) markup contribution) :
    ∃ own made, allowed scope tag own made ∧ markup = tag.around own [] ∧
      contribution = tag.around made [] := by
  cases h with
  | element hallowed hnone =>
    cases hnone
    exact ⟨_, _, hallowed, rfl, rfl⟩

/-- A tag that looks as if it made no declarations makes none. -/
theorem Tag.eq_nil_of_around {tag : Tag} {declarations : List (Option String × String)}
    (h : tag.around [] [] = tag.around declarations []) : declarations = [] := by
  cases declarations with
  | nil => rfl
  | cons d rest =>
    have hlength := congrArg String.length h
    have hblank : " ".length = 1 := by decide
    simp only [around, inside, List.map_nil, List.map_cons, String.join_nil, String.join_cons,
      String.length_append, String.length_empty] at hlength
    omega

theorem raw_append {ps qs : List Piece} : Piece.raw (ps ++ qs) = Piece.raw ps ++ Piece.raw qs := by
  unfold Piece.raw
  rw [List.map_append, String.join_append]

theorem raw_singleton {p : Piece} : Piece.raw [p] = p.content := by
  unfold Piece.raw
  rw [List.map_singleton, String.join_cons, String.join_nil, String.append_empty]

theorem raw_piecesOfAll (scope : Scope) (nodes : List Node) : Piece.raw (piecesOfAll scope nodes) =
    String.join (nodes.map fun n => Piece.raw (n.pieces scope)) := by
  induction nodes with
  | nil => rfl
  | cons n rest ih => rw [piecesOfAll, raw_append, ih, List.map_cons, String.join_cons]

/-- An element is written as its tags around its children. -/
theorem raw_element (scope : Scope) (tag : Tag) (children : List Node) :
    Piece.raw ((Node.element tag children).pieces scope) =
      tag.around (scope.extend tag.needs).2
        (children.map fun n => Piece.raw (n.pieces (scope.extend tag.needs).1)) := by
  cases children with
  | nil => exact raw_singleton
  | cons n rest =>
    rw [pieces_element, ← List.singleton_append, raw_append, raw_append, raw_singleton,
      raw_singleton, raw_piecesOfAll, ← String.append_assoc]
    rfl

mutual

theorem contributes_pieces {alone inside : Scope} (h : alone.Within inside) :
    {n : Node} → n.Proper → Contributes OmitsOrTakesBack inside n (Piece.raw (n.pieces alone))
      (Piece.raw (n.pieces inside))
  | .element tag children, hproper => by
    rw [raw_element, raw_element]
    apply Contributes.element (omitsOrTakesBack_extend hproper.1 h)
    rw [← Scope.extend_fst]
    exact allContribute_pieces (h.inTag hproper.1.consistent) hproper.2
  | .text _, _ => .text
  | .comment _, _ => .comment
  | .instruction _ _, _ => .instruction

theorem allContribute_pieces {alone inside : Scope} (h : alone.Within inside) :
    {nodes : List Node} → AllProper nodes → AllContribute OmitsOrTakesBack inside nodes
      (nodes.map fun n => Piece.raw (n.pieces alone))
      (nodes.map fun n => Piece.raw (n.pieces inside))
  | [], _ => .nil
  | _ :: _, hproper => .cons (contributes_pieces h hproper.1) (allContribute_pieces h hproper.2)

end

end XPathBench.Xml

namespace XPathBench.XPath

open Xml

/-! ## Elements and their parts -/

namespace Place

section

variable (allowed : Scope → Tag → List (Option String × String) → List (Option String × String) →
  Prop)

/-- What a child contributes to the markup of an element that makes the declarations in scope: an
element its own markup but for declarations that are allowed to differ, anything else its markup. -/
def Contributes (scope : Scope) (p : Place) (contribution : String) : Prop :=
  match p with
  | node _ _ (.element tag children) =>
    Xml.Contributes allowed scope (.element tag children) p.markup contribution
  | _ => contribution = p.markup

/-- The markup of an element consists of its name, some declarations, the markup of its attributes
and what its children contribute. -/
def Composed (p : Place) : Prop :=
  ∃ (tag : Tag) (declarations : List (Option String × String)) (contributions : List String),
    p.tag? = some tag ∧
    p.markup = "<" ++ tag.name.qualified ++
      String.join (declarations.map fun d => " " ++ declarationMarkup d) ++
      String.join (p.attributes.map fun a => " " ++ a.markup) ++
      (if p.children.isEmpty then "/>"
        else ">" ++ String.join contributions ++ "</" ++ tag.name.qualified ++ ">") ∧
    List.Forall₂ (Contributes allowed declarations.reverse) p.children contributions

end

variable {parent : Place} {index : Nat} {n : Node} {scope : Scope}

theorem markup_node : (node parent index n).markup = n.markup := by
  cases n with
  | text value =>
    show escapeText value = Piece.raw [.text (escapeText value)]
    rw [raw_singleton, Piece.content]
  | _ => rfl

theorem map_markup_childrenFrom (parent : Place) (index : Nat) (nodes : List Node) :
    (parent.childrenFrom index nodes).map markup = nodes.map Node.markup := by
  induction nodes generalizing index with
  | nil => rfl
  | cons n rest ih => rw [childrenFrom, List.map_cons, List.map_cons, markup_node, ih]

theorem map_markup_attributesFrom (parent : Place) (index : Nat) (as : List Attribute) :
    (parent.attributesFrom index as).map markup = as.map Attribute.markup := by
  induction as generalizing index with
  | nil => rfl
  | cons a rest ih =>
    rw [attributesFrom, List.map_cons, List.map_cons, ih]
    rfl

theorem contributes_node (hn : n.Proper) :
    (node parent index n).Contributes OmitsOrTakesBack scope (Piece.raw (n.pieces scope)) := by
  cases n with
  | element tag children => exact contributes_pieces Scope.within_nil hn
  | text value => exact raw_singleton
  | comment value => exact raw_singleton
  | instruction target value => exact raw_singleton

theorem forall₂_contributes (parent : Place) (index : Nat) (scope : Scope) {nodes : List Node}
    (h : AllProper nodes) :
    List.Forall₂ (Contributes OmitsOrTakesBack scope) (parent.childrenFrom index nodes)
      (nodes.map fun n => Piece.raw (n.pieces scope)) := by
  induction nodes generalizing index with
  | nil => exact .nil
  | cons n rest ih => exact .cons (contributes_node h.1) (ih (index + 1) h.2)

theorem composed_element {tag : Tag} {children : List Node}
    (h : (Node.element tag children).Proper) :
    (node parent index (.element tag children)).Composed OmitsOrTakesBack := by
  have hforall := forall₂_contributes (node parent index (.element tag children)) 0
    (Scope.extend [] tag.needs).1 h.2
  rw [Scope.extend_fst, List.append_nil] at hforall
  have hattributes : (node parent index (.element tag children)).attributes.map
      (fun a => " " ++ a.markup) = tag.attributes.map fun a => " " ++ a.markup := by
    have hmap := congrArg (List.map (" " ++ ·))
      (map_markup_attributesFrom (node parent index (.element tag children)) 0 tag.attributes)
    rwa [List.map_map, List.map_map] at hmap
  refine ⟨tag, (Scope.extend [] tag.needs).2, _, rfl, ?_, hforall⟩
  rw [hattributes, markup_node, Node.markup, raw_element, Scope.extend_fst, List.append_nil]
  cases children with
  | nil => rfl
  | cons n rest =>
    show _ = _ ++ (">" ++ String.join _ ++ "</" ++ _ ++ ">")
    simp only [List.map_cons, Tag.around, Tag.inside, String.append_assoc]

end Place

/-- The markup of a document is that of its children, and the markup of each element is composed of
that of its attributes and of what its children contribute. -/
theorem markup_composed {text : String} {d : Document} (h : Document.load text = .ok d) :
    (Place.root d).markup = String.join ((Place.root d).children.map Place.markup) ∧
    ∀ p ∈ (Place.root d).subtree, p.kind = .element → p.Composed OmitsOrTakesBack := by
  constructor
  · show Piece.raw (piecesOfAll [] d.children) = _
    rw [raw_piecesOfAll, Place.children, Place.map_markup_childrenFrom]
    rfl
  · intro p hp hkind
    have hproper := proper_fragment h hp (by rw [hkind]; rfl)
    match p, hkind with
    | .node parent index (.element tag children), _ =>
      exact Place.composed_element hproper.children.1

/-- An element in which one child omits the default namespace and another one takes it back. -/
theorem markup_composed_nested :
    ∃ (a : Node) (p : Place), p = .node (.root ⟨[a]⟩) 0 a ∧
      Document.load "<a xmlns=\"u\"><b/><c xmlns=\"\"/></a>" = .ok ⟨[a]⟩ ∧
      p ∈ (Place.root ⟨[a]⟩).subtree ∧ p.kind = .element ∧ p.Composed OmitsOrTakesBack := by
  let b : Node := .element ⟨⟨some "u", none, "b"⟩, [], []⟩ []
  let c : Node := .element ⟨⟨none, none, "c"⟩, [], []⟩ []
  let a : Node := .element ⟨⟨some "u", none, "a"⟩, [("xml", xmlUri)], []⟩ [b, c]
  have hload : Document.load "<a xmlns=\"u\"><b/><c xmlns=\"\"/></a>" = .ok ⟨[a]⟩ :=
    load_eq_ok_iff.mpr (by decide +kernel)
  have hp : .node (.root ⟨[a]⟩) 0 a ∈ (Place.root ⟨[a]⟩).subtree :=
    Place.mem_subtree_of_mem_children List.mem_cons_self
  exact ⟨a, _, rfl, hload, hp, rfl, (markup_composed hload).2 _ hp rfl⟩

/-- An element without namespace says inside a default namespace that it has none, and does not say
so on its own. -/
theorem markup_takes_back :
    ¬ ∀ (text : String) (d : Document) (p : Place), Document.load text = .ok d →
      p ∈ (Place.root d).subtree → p.kind = .element →
      p.Composed fun scope _ own made => Omits scope own made := by
  let bTag : Tag := ⟨⟨none, none, "b"⟩, [], []⟩
  let aTag : Tag := ⟨⟨some "u", none, "a"⟩, [("xml", xmlUri)], []⟩
  let a : Node := .element aTag [.element bTag []]
  have hload : Document.load "<a xmlns=\"u\"><b xmlns=\"\"/></a>" = .ok ⟨[a]⟩ :=
    load_eq_ok_iff.mpr (by decide +kernel)
  have hp : .node (.root ⟨[a]⟩) 0 a ∈ (Place.root ⟨[a]⟩).subtree :=
    Place.mem_subtree_of_mem_children List.mem_cons_self
  intro hclaim
  obtain ⟨tag, declarations, contributions, htag, hmarkup, hforall⟩ := hclaim _ _ _ hload hp rfl
  obtain ⟨contribution, hb, rfl⟩ : ∃ contribution,
      (Place.node (.node (.root ⟨[a]⟩) 0 a) 0 (.element bTag [])).Contributes
        (fun scope _ own made => Omits scope own made) declarations.reverse contribution ∧
      contributions = [contribution] := by
    cases hforall with
    | cons hb hrest =>
      cases hrest
      exact ⟨_, hb, rfl⟩
  obtain ⟨own, made, ⟨hsublist, -⟩, hown, rfl⟩ := Contributes.exists_of_leaf hb
  -- Without declarations the inner element is written in one way only, with and without others.
  obtain rfl : own = [] := Tag.eq_nil_of_around (.trans (by decide +kernel) hown)
  obtain rfl := List.sublist_nil.mp hsublist
  have hsuffix : "<b/></a>".toList <:+ (Place.node (.root ⟨[a]⟩) 0 a).markup.toList := by
    obtain rfl : aTag = tag := Option.some.inj htag
    rw [hmarkup, String.toList_append]
    exact .trans (by decide +kernel) (List.suffix_append _ _)
  exact absurd hsuffix (by decide +kernel)

end XPathBench.XPath

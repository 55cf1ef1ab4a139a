import XPathBench.Proofs.Xml.Content
import XPathBench.Proofs.Xml.Resolving

/-!
# What comes out of reading

A document that was read has names that can be written, attributes in order and with names of their
own, and one namespace for each prefix of a tag; its top level holds one element among comments and
processing instructions.

* `Tag.Proper`, `Node.Proper`: tags and nodes as they are read
* `Document.Proper`: documents as they are read
* `proper_of_parse`: only such documents are read
-/

namespace XPathBench.Xml

open Reader Grammar

/-! ## Tags -/

/-- The name as it is written in a tag. -/
def Name.written (n : Name) : PrefixedName := ⟨n.prefixName, n.localName⟩

/-- A name that was read: its prefix stands for a namespace, and no namespace is empty. -/
structure Name.Proper (n : Name) : Prop where
  valid : n.written.Valid
  bound : n.prefixName.isSome = true → n.uri.isSome = true
  uri_ne : n.uri ≠ some ""

/-- An attribute that was read: without prefix it has no namespace, and it declares none. -/
structure Attribute.Proper (a : Attribute) : Prop where
  name : a.name.Proper
  unbound : a.name.prefixName = none → a.name.uri = none
  prefix_ne : a.name.prefixName ≠ some "xmlns"
  local_ne : a.name.localName ≠ "xmlns"

/-- A tag that was read: its attributes stand in order with names of their own, and a prefix stands
for one namespace in all of it. -/
structure Tag.Proper (t : Tag) : Prop where
  name : t.name.Proper
  attributes : ∀ a ∈ t.attributes, a.Proper
  ordered : t.attributes.Pairwise fun a b => a.name.written.Before b.name.written
  distinct : t.attributes.Pairwise fun a b => ¬ a.SameName b
  consistent : ∀ p u v, (p, u) ∈ t.needs → (p, v) ∈ t.needs → u = v

theorem Attribute.need?_eq_some_iff {a : Attribute} {need : Option String × String} :
    a.need? = some need ↔ ∃ p u, a.name.prefixName = some p ∧ a.name.uri = some u ∧
      need = (some p, u) := by
  rw [Attribute.need?]
  cases a.name.uri <;> cases a.name.prefixName <;> simp [eq_comm]

theorem Tag.mem_needs_iff {t : Tag} {need : Option String × String} :
    need ∈ t.needs ↔ need = t.need ∨ ∃ a ∈ t.attributes, a.need? = some need := by
  rw [Tag.needs, List.mem_cons, List.mem_filterMap]

theorem Tag.need_eq_some_iff {t : Tag} {p u : String} :
    t.need = (some p, u) ↔ t.name.prefixName = some p ∧ t.name.uri = some u := by
  rw [Tag.need]
  cases t.name.uri <;> simp

/-- Only the name of an element needs something of the default namespace. -/
theorem Tag.mem_needs_none_iff {t : Tag} {u : String} :
    (none, u) ∈ t.needs ↔ (none, u) = t.need := by
  rw [Tag.mem_needs_iff]
  refine or_iff_left ?_
  rintro ⟨a, _, h⟩
  obtain ⟨p, v, _, _, heq⟩ := Attribute.need?_eq_some_iff.mp h
  cases heq

/-- What open elements leave to the tags inside them was read. -/
structure OpenElement.Proper (e : OpenElement) : Prop where
  tag : e.tag.Proper
  bindings : ∀ b ∈ e.tag.bindings, b.2 ≠ ""
  inherited : e.inherited ≠ some ""

section Resolve

variable {own : List (String × String)} {enclosing : List OpenElement} {p u : String}

theorem namespaceOf?_eq_or : namespaceOf? own enclosing p =
    (own.lookup p).or (namespaceOf? [] enclosing p) := rfl

theorem namespaceOf?_append {more : List (String × String)} :
    namespaceOf? (own ++ more) enclosing p = (own.lookup p).or (namespaceOf? more enclosing p) := by
  rw [namespaceOf?, List.lookup_append, Option.or_assoc]
  rfl

theorem mem_of_lookup {α β : Type} [BEq α] [LawfulBEq α] {l : List (α × β)} {a : α} {b : β}
    (h : l.lookup a = some b) : (a, b) ∈ l := by
  obtain ⟨l₁, l₂, rfl, _⟩ := List.lookup_eq_some_iff.mp h
  simp

/-- No prefix stands for the empty namespace. -/
theorem namespaceOf?_ne (hown : ∀ b ∈ own, b.2 ≠ "") (henc : ∀ e ∈ enclosing, e.Proper) :
    namespaceOf? own enclosing p ≠ some "" := by
  intro h
  rcases Option.or_eq_some_iff.mp h with h | ⟨_, h⟩
  · exact hown _ (mem_of_lookup h) rfl
  · obtain ⟨e, he, h⟩ := List.exists_of_findSome?_eq_some h
    exact (henc e he).bindings _ (mem_of_lookup h) rfl

theorem mem_allBindings {b : String × String}
    (h : b ∈ StartTag.allBindings own enclosing) : b = ("xml", xmlUri) ∨ b ∈ own := by
  cases enclosing with
  | nil => exact (List.mem_cons.mp h).imp_right fun h => (List.mem_filter.mp h).1
  | cons => exact .inr h

/-- For the attributes of an element a prefix stands for what it stands for in its name. -/
theorem namespaceOf?_attribute (h : namespaceOf? own enclosing p = some u) :
    namespaceOf? (own ++ StartTag.allBindings own enclosing) enclosing p = some u := by
  rw [namespaceOf?_append]
  cases hown : own.lookup p with
  | some v =>
    rw [namespaceOf?_eq_or, hown] at h
    exact h
  | none =>
    rw [namespaceOf?_eq_or, hown, Option.none_or] at h
    cases enclosing with
    | nil => cases h
    | cons e outer =>
      show namespaceOf? own (e :: outer) p = some u
      rw [namespaceOf?_eq_or, hown]
      exact h

end Resolve

theorem StartTag.nameUri_ne {tag : StartTag} {own : List (String × String)}
    {declared : Option String} {enclosing : List OpenElement}
    (hown : ∀ b ∈ own, b.2 ≠ "") (henc : ∀ e ∈ enclosing, e.Proper) :
    tag.nameUri own declared enclosing ≠ some "" := by
  unfold nameUri
  split
  · exact namespaceOf?_ne hown henc
  · split
    · simp
    · next hne => exact fun h => hne (Option.some.inj h)
  · intro h
    obtain ⟨e, he, h⟩ := List.exists_of_findSome?_eq_some h
    exact (henc e he).inherited h

theorem WrittenAttribute.isPlain_iff {a : WrittenAttribute} :
    a.isPlain = true ↔ a.name.prefixName ≠ some "xmlns" ∧ a.name.localName ≠ "xmlns" := by
  simp only [isPlain, bindsDefault, bindsPrefix]
  cases h : a.name.prefixName == some "xmlns" <;> simp_all

theorem exists_forall₂ {α β : Type} {R : α → β → Prop} {as : List α}
    (h : ∀ a ∈ as, ∃ b, R a b) : ∃ bs, List.Forall₂ R as bs := by
  induction as with
  | nil => exact ⟨[], .nil⟩
  | cons a as ih =>
    obtain ⟨⟨b, hb⟩, has⟩ := List.forall_mem_cons.mp h
    obtain ⟨bs, hbs⟩ := ih has
    exact ⟨b :: bs, .cons hb hbs⟩

theorem exists_of_mem_right {α β : Type} {R : α → β → Prop} {as : List α} {bs : List β}
    (h : List.Forall₂ R as bs) : ∀ b ∈ bs, ∃ a ∈ as, R a b := by
  induction h with
  | nil => simp
  | cons hab _ ih =>
    refine List.forall_mem_cons.mpr ⟨⟨_, by simp, hab⟩, fun b hb => ?_⟩
    obtain ⟨a, ha, hab⟩ := ih b hb
    exact ⟨a, List.mem_cons_of_mem _ ha, hab⟩

section Becomes

variable {own : List (String × String)} {enclosing : List OpenElement} {a : WrittenAttribute}
  {b : Attribute}

theorem StartTag.Becomes.written (h : Becomes own enclosing a b) : b.name.written = a.name := by
  rw [Name.written, h.prefix_eq, h.local_eq]

theorem StartTag.Becomes.proper (h : Becomes own enclosing a b) (hname : a.name.Valid)
    (hplain : a.isPlain = true) (hown : ∀ b ∈ own, b.2 ≠ "") (henc : ∀ e ∈ enclosing, e.Proper) :
    b.Proper := by
  obtain ⟨hpre, hlocal⟩ := WrittenAttribute.isPlain_iff.mp hplain
  refine ⟨⟨?_, ?_, ?_⟩, ?_, ?_, ?_⟩
  · rw [h.written]
    exact hname
  · rw [h.prefix_eq]
    exact h.bound
  · rw [h.uri_eq]
    intro huri
    obtain ⟨p, _, huri⟩ := Option.bind_eq_some_iff.mp huri
    exact namespaceOf?_ne hown henc huri
  · intro hnone
    rw [h.uri_eq, ← h.prefix_eq, hnone]
    rfl
  · rw [h.prefix_eq]
    exact hpre
  · rw [h.local_eq]
    exact hlocal

/-- Attributes are in order once those written are, and none of them is written twice. -/
theorem StartTag.pairwise_before {as : List WrittenAttribute} {bs : List Attribute}
    (h : List.Forall₂ (Becomes own enclosing) as bs)
    (has : as.Pairwise fun a b => a.name.Before b.name) :
    bs.Pairwise fun a b => a.name.written.Before b.name.written := by
  have hnames : bs.map (fun b => b.name.written) = as.map WrittenAttribute.name := by
    rw [← List.forall₂_eq_eq_eq, List.forall₂_map_left_iff, List.forall₂_map_right_iff]
    exact (h.imp fun _ _ => Becomes.written).flip
  rw [← List.pairwise_map, hnames, List.pairwise_map]
  exact has

/-- What a tag needs of a prefix is what the prefix stands for in it. -/
theorem StartTag.namespaceOf?_of_mem_needs {tag : StartTag} {declared : Option String}
    {as : List WrittenAttribute} {attributes new : List Attribute} {p u : String}
    (hnew : List.Forall₂ (Becomes (own ++ allBindings own enclosing) enclosing) as new)
    (hsub : attributes ⊆ new)
    (hneed : (some p, u) ∈ Tag.needs ⟨⟨tag.nameUri own declared enclosing, tag.name.prefixName,
      tag.name.localName⟩, allBindings own enclosing, attributes⟩) :
    namespaceOf? (own ++ allBindings own enclosing) enclosing p = some u := by
  rcases Tag.mem_needs_iff.mp hneed with hneed | ⟨b, hb, hneed⟩
  · obtain ⟨hp, hu⟩ := Tag.need_eq_some_iff.mp hneed.symm
    refine namespaceOf?_attribute ?_
    rw [← hu]
    unfold nameUri
    rw [show tag.name.prefixName = some p from hp]
  · obtain ⟨q, v, hq, hv, heq⟩ := Attribute.need?_eq_some_iff.mp hneed
    cases heq
    obtain ⟨a, _, hab⟩ := exists_of_mem_right hnew b (hsub hb)
    rw [← hv, hab.uri_eq, ← hab.prefix_eq, hq]
    rfl

end Becomes

theorem StartTag.inheritedFrom_ne {tag : StartTag} {declared : Option String} :
    tag.inheritedFrom declared ≠ some "" := by
  unfold inheritedFrom
  split
  · split
    · simp
    · next hne => exact fun h => hne (Option.some.inj h)
  · simp

/-- The element that a proper start tag opens inside proper elements. -/
theorem StartTag.proper_of_resolve {tag : StartTag} {enclosing : List OpenElement}
    {e : OpenElement} (hname : tag.name.Valid) (has : ∀ a ∈ tag.attributes, a.name.Valid)
    (henc : ∀ e ∈ enclosing, e.Proper) (h : tag.resolve enclosing = .ok e) : e.Proper := by
  obtain ⟨own, declared, uri, new, hplain, -, -, -, hown, rfl, hbound, hnew, rfl⟩ :=
    resolve_eq_ok_iff.mp h
  have hown_ne : ∀ b ∈ own, b.2 ≠ "" := by
    intro b hb
    obtain ⟨a, _, hab⟩ := exists_of_mem_right hown b hb
    exact hab.2.2
  have hall_ne : ∀ b ∈ allBindings own enclosing, b.2 ≠ "" := by
    intro b hb
    rcases mem_allBindings hb with rfl | hb
    · decide
    · exact hown_ne b hb
  have hnew_proper : ∀ b ∈ new, b.Proper := by
    intro b hb
    obtain ⟨a, ha, hab⟩ := exists_of_mem_right hnew b hb
    obtain ⟨ha, hp⟩ := List.mem_filter.mp ha
    have hvalid := has a ((WrittenAttribute.perm_sort _).subset ha)
    exact hab.proper hvalid hp (List.forall_mem_append.mpr ⟨hown_ne, hall_ne⟩) henc
  have hsub : (Attribute.putAll [] new).Sublist new := Attribute.putAll_sublist
  have hordered : new.Pairwise fun a b => a.name.written.Before b.name.written :=
    pairwise_before hnew (WrittenAttribute.pairwise_before_of_firstRepeated?
      ((WrittenAttribute.pairwise_sort _).filter _) hplain)
  refine ⟨⟨⟨hname, hbound, nameUri_ne hown_ne henc⟩, fun a ha => hnew_proper a (hsub.subset ha),
    hordered.sublist hsub, Attribute.pairwise_putAll .nil, ?_⟩, hall_ne, inheritedFrom_ne⟩
  intro p u v hu hv
  cases p with
  | some p =>
    have hp := namespaceOf?_of_mem_needs hnew hsub.subset hu
    exact Option.some.inj (hp.symm.trans (namespaceOf?_of_mem_needs hnew hsub.subset hv))
  | none =>
    have heq := (Tag.mem_needs_none_iff.mp hu).trans (Tag.mem_needs_none_iff.mp hv).symm
    exact congrArg Prod.snd heq

/-! ## Nodes -/

mutual

/-- A node that was read. -/
def Node.Proper : Node → Prop
  | .element tag children => tag.Proper ∧ AllProper children
  | .text _ => True
  | .comment s => IsCommentText s
  | .instruction target value => IsInstruction target value

/-- Nodes that were read. -/
def AllProper : List Node → Prop
  | [] => True
  | n :: rest => n.Proper ∧ AllProper rest

end

variable {nodes more : List Node} {a b : Assembly} {r : Region} {token : Token}

theorem allProper_iff : AllProper nodes ↔ ∀ n ∈ nodes, n.Proper := by
  induction nodes with
  | nil => simp [AllProper]
  | cons n rest ih => simp [AllProper, ih]

/-- The node is a comment or a processing instruction. -/
def Node.isMisc : Node → Bool
  | .comment _ | .instruction _ _ => true
  | _ => false

/-- One element stands among comments and processing instructions. -/
def OneElement (nodes : List Node) : Prop :=
  ∃ before tag children after, nodes = before ++ Node.element tag children :: after ∧
    (∀ n ∈ before, n.isMisc = true) ∧ ∀ n ∈ after, n.isMisc = true

theorem OneElement.reverse (h : OneElement nodes) : OneElement nodes.reverse := by
  obtain ⟨before, tag, children, after, rfl, hbefore, hafter⟩ := h
  exact ⟨after.reverse, tag, children, before.reverse, by simp, by simpa using hafter,
    by simpa using hbefore⟩

theorem OneElement.cons {n : Node} (hn : n.isMisc = true) (h : OneElement nodes) :
    OneElement (n :: nodes) := by
  obtain ⟨before, tag, children, after, rfl, hbefore, hafter⟩ := h
  exact ⟨n :: before, tag, children, after, rfl, List.forall_mem_cons.mpr ⟨hn, hbefore⟩, hafter⟩

/-! ## Documents in the making -/

/-- All that a document in the making holds was read. -/
structure Assembly.Proper (a : Assembly) : Prop where
  enclosing : ∀ e ∈ a.enclosing, e.Proper
  children : ∀ e ∈ a.enclosing, AllProper e.children
  complete : AllProper a.complete

/-- A document in the making as it is in a region. -/
inductive Assembly.Fits : Region → Assembly → Prop where
  | beginning : Fits .beginning .empty
  | prolog {complete : List Node} : (∀ n ∈ complete, n.isMisc = true) → Fits .prolog ⟨[], complete⟩
  | content {depth : Nat} {enclosing : List OpenElement} {complete : List Node} :
      enclosing.length = depth + 1 → (∀ n ∈ complete, n.isMisc = true) →
      Fits (.content depth) ⟨enclosing, complete⟩
  | epilog {complete : List Node} : OneElement complete → Fits .epilog ⟨[], complete⟩

theorem Assembly.Proper.put {n : Node} (ha : a.Proper) (hn : n.Proper) : (a.put n).Proper := by
  obtain ⟨enclosing, complete⟩ := a
  cases enclosing with
  | nil => exact ⟨nofun, nofun, hn, ha.complete⟩
  | cons e outer =>
    obtain ⟨he, houter⟩ := List.forall_mem_cons.mp ha.enclosing
    obtain ⟨hc, hcs⟩ := List.forall_mem_cons.mp ha.children
    refine ⟨List.forall_mem_cons.mpr ⟨⟨he.tag, he.bindings, he.inherited⟩, houter⟩,
      List.forall_mem_cons.mpr ⟨⟨hn, hc⟩, hcs⟩, ha.complete⟩

theorem Assembly.proper_add (hstands : token.StandsIn r) (ha : a.Proper)
    (h : a.add token = .ok b) : b.Proper := by
  cases hstands with
  | declaration | doctype | gap => cases h; exact ha
  | comment hs => cases h; exact ha.put hs
  | instruction hi => cases h; exact ha.put hi
  | text | cdata => cases h; exact ha.put trivial
  | reference =>
    obtain ⟨c, _, h⟩ := bind_eq_ok.mp h
    cases h
    exact ha.put trivial
  | @opening _ tag _ hname has =>
    obtain ⟨e, he, h⟩ := bind_eq_ok.mp h
    have heproper := StartTag.proper_of_resolve hname has ha.enclosing he
    split at h
    · cases h
      exact ha.put ⟨heproper.tag, trivial⟩
    · cases h
      obtain ⟨_, _, _, _, _, _, _, _, _, _, _, _, rfl⟩ := StartTag.resolve_eq_ok_iff.mp he
      exact ⟨List.forall_mem_cons.mpr ⟨heproper, ha.enclosing⟩,
        List.forall_mem_cons.mpr ⟨trivial, ha.children⟩, ha.complete⟩
  | closing =>
    obtain ⟨enclosing, complete⟩ := a
    cases enclosing with
    | nil => cases h
    | cons e outer =>
      simp only [add, close] at h
      split at h
      · cases h
        obtain ⟨he, houter⟩ := List.forall_mem_cons.mp ha.enclosing
        obtain ⟨hc, hcs⟩ := List.forall_mem_cons.mp ha.children
        refine Proper.put ⟨houter, hcs, ha.complete⟩ ⟨he.tag, allProper_iff.mpr fun n hn => ?_⟩
        exact allProper_iff.mp hc n (List.mem_reverse.mp hn)
      · cases h

theorem Assembly.Fits.put_content {depth : Nat} {n : Node} (h : Fits (.content depth) a) :
    Fits (.content depth) (a.put n) := by
  cases h with
  | @content _ enclosing _ hlen hmisc =>
    cases enclosing with
    | nil => cases hlen
    | cons e outer => exact .content hlen hmisc

/-- The region behind a comment or a processing instruction. -/
def Grammar.Region.past : Region → Region
  | .content depth => .content depth
  | .epilog => .epilog
  | _ => .prolog

theorem after_comment {s : String} : r.after (.comment s) = r.past := by
  rcases r with _ | _ | (_ | _) | _ <;> rfl

theorem after_instruction {target : String} {value : Option String} :
    r.after (.instruction target value) = r.past := by
  rcases r with _ | _ | (_ | _) | _ <;> rfl

theorem Assembly.Fits.put_misc {n : Node} (h : Fits r a) (hn : n.isMisc = true) :
    Fits r.past (a.put n) := by
  cases h with
  | beginning => exact .prolog (by simpa [empty, put] using hn)
  | prolog hmisc => exact .prolog (List.forall_mem_cons.mpr ⟨hn, hmisc⟩)
  | content hlen hmisc => exact put_content (.content hlen hmisc)
  | epilog hone => exact .epilog (hone.cons hn)

/-- The top element, put where only comments and processing instructions are complete. -/
theorem oneElement_put {tag : Tag} {children complete : List Node}
    (h : ∀ n ∈ complete, n.isMisc = true) : OneElement (.element tag children :: complete) :=
  ⟨[], tag, children, complete, rfl, by simp, h⟩

theorem Assembly.Fits.opening {tag : StartTag} (ha : Fits r a) (hr : r ≠ .epilog)
    (h : a.add (.opening tag) = .ok b) : Fits (r.after (.opening tag)) b := by
  obtain ⟨e, _, h⟩ := bind_eq_ok.mp h
  cases hclosing : tag.selfClosing with
  | true =>
    rw [hclosing, if_pos rfl] at h
    cases h
    cases ha with
    | beginning => simpa [Region.after, hclosing] using .epilog (oneElement_put (by simp))
    | prolog hmisc => simpa [Region.after, hclosing] using .epilog (oneElement_put hmisc)
    | content hlen hmisc =>
      simpa [Region.after, hclosing] using Fits.put_content (.content hlen hmisc)
    | epilog => exact absurd rfl hr
  | false =>
    rw [hclosing, if_neg Bool.false_ne_true] at h
    cases h
    cases ha with
    | beginning => simpa [Region.after, hclosing] using .content rfl nofun
    | prolog hmisc => simpa [Region.after, hclosing] using .content rfl hmisc
    | content hlen hmisc =>
      simpa [Region.after, hclosing] using .content (congrArg Nat.succ hlen) hmisc
    | epilog => exact absurd rfl hr

theorem Assembly.Fits.closing {depth place : Nat} {name : PrefixedName}
    (ha : Fits (.content depth) a) (h : a.add (.closing name place) = .ok b) :
    Fits (Region.after (.content depth) (.closing name place)) b := by
  cases ha with
  | @content _ enclosing complete hlen hmisc =>
    cases enclosing with
    | nil => cases hlen
    | cons e outer =>
      simp only [add, close] at h
      split at h
      · cases h
        cases depth with
        | zero =>
          obtain rfl := List.length_eq_zero_iff.mp (Nat.succ.inj hlen)
          exact .epilog (oneElement_put hmisc)
        | succ depth => exact Fits.put_content (.content (Nat.succ.inj hlen) hmisc)
      · cases h

theorem Assembly.fits_add (hstands : token.StandsIn r) (ha : Fits r a) (h : a.add token = .ok b) :
    Fits (r.after token) b := by
  cases hstands with
  | declaration =>
    cases ha
    cases h
    exact .prolog (by simp)
  | doctype =>
    cases ha with
    | prolog hmisc => cases h; exact .prolog hmisc
  | gap hr =>
    cases h
    cases ha with
    | beginning => exact .prolog (by simp)
    | prolog hmisc => exact .prolog hmisc
    | content => exact absurd rfl (hr _)
    | epilog hone => exact .epilog hone
  | comment =>
    cases h
    rw [after_comment]
    exact ha.put_misc rfl
  | instruction =>
    cases h
    rw [after_instruction]
    exact ha.put_misc rfl
  | @text depth | @cdata depth =>
    cases h
    cases depth <;> exact ha.put_content
  | @reference depth =>
    obtain ⟨c, _, h⟩ := bind_eq_ok.mp h
    cases h
    cases depth <;> exact ha.put_content
  | opening hr => exact ha.opening hr h
  | closing => exact ha.closing h

theorem Reads.proper {r' : Region} {t u : List Char} (h : Reads r a t r' b u) (ha : a.Proper) :
    b.Proper := by
  induction h with
  | refl => exact ha
  | step hpiece hadd _ ih => exact ih (Assembly.proper_add (.of_pieceIn _ _ _ hpiece) ha hadd)

theorem Reads.fits {r' : Region} {t u : List Char} (h : Reads r a t r' b u) (ha : a.Fits r) :
    b.Fits r' := by
  induction h with
  | refl => exact ha
  | step hpiece hadd _ ih => exact ih (Assembly.fits_add (.of_pieceIn _ _ _ hpiece) ha hadd)

/-! ## Documents -/

/-- A document that was read. -/
structure Document.Proper (d : Document) : Prop where
  children : AllProper d.children
  apart : AllApart d.children
  oneElement : OneElement d.children

theorem isMisc_mergeText (n : Node) : n.mergeText.isMisc = n.isMisc := by
  cases n <;> rfl

theorem proper_prependNode {n : Node} (hn : n.Proper) (h : AllProper nodes) :
    AllProper (prependNode n nodes) := by
  cases n with
  | text a =>
    cases nodes with
    | nil => exact ⟨hn, h⟩
    | cons m rest =>
      cases m with
      | text b => exact ⟨trivial, h.2⟩
      | _ => exact ⟨hn, h⟩
  | _ => exact ⟨hn, h⟩

mutual

theorem Node.Proper.mergeText : {n : Node} → n.Proper → n.mergeText.Proper
  | .element _ _, h => ⟨h.1, AllProper.mergeText h.2⟩
  | .text _, h | .comment _, h | .instruction _ _, h => h

theorem AllProper.mergeText : {nodes : List Node} → AllProper nodes → AllProper (mergeTextAll nodes)
  | [], h => h
  | _ :: _, h => proper_prependNode h.1.mergeText (AllProper.mergeText h.2)

end

/-- What a change of single nodes leaves of a document: an element stays one with its tag. -/
structure KeepsKind (f : Node → Node) : Prop where
  element (tag : Tag) (children : List Node) :
    ∃ inner, f (.element tag children) = .element tag inner
  misc (n : Node) : n.isMisc = true → (f n).isMisc = true

theorem keepsKind_mergeText : KeepsKind Node.mergeText where
  element _ _ := ⟨_, rfl⟩
  misc n hn := (isMisc_mergeText n).trans hn

theorem OneElement.map {f : Node → Node} (h : OneElement nodes) (hf : KeepsKind f) :
    OneElement (nodes.map f) := by
  obtain ⟨before, tag, children, after, rfl, hbefore, hafter⟩ := h
  have hmisc {ns : List Node} (hns : ∀ n ∈ ns, n.isMisc = true) :
      ∀ n ∈ ns.map f, n.isMisc = true := by
    intro n hn
    obtain ⟨m, hm, rfl⟩ := List.mem_map.mp hn
    exact hf.misc m (hns m hm)
  obtain ⟨inner, hinner⟩ := hf.element tag children
  exact ⟨before.map f, tag, inner, after.map f, by rw [List.map_append, List.map_cons, hinner],
    hmisc hbefore, hmisc hafter⟩

/-- No text stands at top level. -/
theorem OneElement.isText (h : OneElement nodes) : ∀ n ∈ nodes, n.isText = false := by
  obtain ⟨before, tag, children, after, rfl, hbefore, hafter⟩ := h
  have hmisc {n : Node} (hn : n.isMisc = true) : n.isText = false := by
    cases n <;> first | rfl | cases hn
  intro n hn
  rcases List.mem_append.mp hn with hn | hn
  · exact hmisc (hbefore n hn)
  rcases List.mem_cons.mp hn with rfl | hn
  · rfl
  · exact hmisc (hafter n hn)

theorem allApart_of_not_text (h : ∀ n ∈ nodes, n.Apart) (ht : ∀ n ∈ nodes, n.isText = false) :
    AllApart nodes := by
  induction nodes with
  | nil => trivial
  | cons n rest ih =>
    rw [List.forall_mem_cons] at h ht
    exact ⟨h.1, fun h => by simp [ht.1] at h, ih h.2 ht.2⟩

theorem proper_of_parse {text : String} {d : Document} (h : Document.parse text = .ok d) :
    d.Proper := by
  rw [Document.parse] at h
  cases hd : Document.assemble text with
  | error e => rw [hd] at h; cases h
  | ok d₀ =>
    rw [hd] at h
    cases h
    obtain ⟨r, nodes, hr, rfl, hreads⟩ := assemble_eq_ok_iff.mp hd
    have hone : OneElement nodes := by
      cases hreads.fits .beginning with
      | epilog hone => exact hone
      | content hlen => cases hlen
      | beginning | prolog => cases hr
    have hproper : AllProper nodes :=
      (hreads.proper ⟨nofun, nofun, trivial⟩).complete
    have hone' : OneElement (nodes.reverse.map Node.mergeText) :=
      hone.reverse.map keepsKind_mergeText
    refine ⟨allProper_iff.mpr fun n hn => ?_, allApart_of_not_text (fun n hn => ?_) hone'.isText,
      hone'⟩
    · obtain ⟨m, hm, rfl⟩ := List.mem_map.mp hn
      exact (allProper_iff.mp hproper m (List.mem_reverse.mp hm)).mergeText
    · obtain ⟨m, _, rfl⟩ := List.mem_map.mp hn
      exact m.apart_mergeText

mutual

theorem Node.Proper.content : {n : Node} → n.Proper → n.content.Proper
  | .element _ _, h =>
    ⟨⟨h.1.name, h.1.attributes, h.1.ordered, h.1.distinct, h.1.consistent⟩, AllProper.content h.2⟩
  | .text _, h | .comment _, h | .instruction _ _, h => h

theorem AllProper.content : {nodes : List Node} → AllProper nodes → AllProper (contentOfAll nodes)
  | [], h => h
  | n :: _, h => by
    rw [contentOfAll]
    split
    · exact AllProper.content h.2
    · exact ⟨h.1.content, AllProper.content h.2⟩

end

/-! ## Without blank text -/

theorem isText_withoutBlankText (n : Node) : n.withoutBlankText.isText = n.isText := by
  cases n <;> rfl

theorem noTextAhead_dropBlankText (h : NoTextAhead nodes) : NoTextAhead (dropBlankText nodes) := by
  cases nodes with
  | nil => exact h
  | cons n rest =>
    rw [noTextAhead_cons] at h
    have hblank : n.isBlankText = false := by
      cases n with
      | text => cases h
      | _ => rfl
    rw [dropBlankText, hblank]
    exact noTextAhead_cons.mpr ((isText_withoutBlankText n).trans h)

mutual

theorem Node.Proper.withoutBlankText : {n : Node} → n.Proper → n.withoutBlankText.Proper
  | .element _ _, h => ⟨h.1, AllProper.dropBlankText h.2⟩
  | .text _, h | .comment _, h | .instruction _ _, h => h

theorem AllProper.dropBlankText :
    {nodes : List Node} → AllProper nodes → AllProper (dropBlankText nodes)
  | [], h => h
  | n :: _, h => by
    rw [Xml.dropBlankText]
    split
    · exact AllProper.dropBlankText h.2
    · exact ⟨h.1.withoutBlankText, AllProper.dropBlankText h.2⟩

end

mutual

theorem Node.Apart.withoutBlankText : {n : Node} → n.Apart → n.withoutBlankText.Apart
  | .element _ _, h => AllApart.dropBlankText h
  | .text _, h | .comment _, h | .instruction _ _, h => h

theorem AllApart.dropBlankText :
    {nodes : List Node} → AllApart nodes → AllApart (dropBlankText nodes)
  | [], h => h
  | n :: _, h => by
    rw [Xml.dropBlankText]
    split
    · exact AllApart.dropBlankText h.2.2
    · refine ⟨h.1.withoutBlankText, fun ht => ?_, AllApart.dropBlankText h.2.2⟩
      exact noTextAhead_dropBlankText (h.2.1 ((isText_withoutBlankText n).symm.trans ht))

end

theorem keepsKind_withoutBlankText : KeepsKind Node.withoutBlankText where
  element _ _ := ⟨_, rfl⟩
  misc n hn := by cases n <;> first | rfl | cases hn

/-- Single nodes of a document may be changed if they stay as they can be read. -/
theorem Document.Proper.map {d : Document} {f : Node → Node} (h : d.Proper) (hf : KeepsKind f)
    (hproper : ∀ {n}, n.Proper → (f n).Proper) (hapart : ∀ {n}, n.Apart → (f n).Apart) :
    Document.Proper ⟨d.children.map f⟩ := by
  have hone := h.oneElement.map hf
  refine ⟨allProper_iff.mpr fun n hn => ?_, allApart_of_not_text (fun n hn => ?_) hone.isText, hone⟩
  · obtain ⟨m, hm, rfl⟩ := List.mem_map.mp hn
    exact hproper (allProper_iff.mp h.children m hm)
  · obtain ⟨m, hm, rfl⟩ := List.mem_map.mp hn
    exact hapart (apart_of_mem h.apart hm)

theorem Document.Proper.map_withoutBlankText {d : Document} (h : d.Proper) :
    Document.Proper ⟨d.children.map Node.withoutBlankText⟩ :=
  h.map keepsKind_withoutBlankText Node.Proper.withoutBlankText Node.Apart.withoutBlankText

end XPathBench.Xml

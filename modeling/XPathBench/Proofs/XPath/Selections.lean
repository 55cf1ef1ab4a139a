import XPathBench.Proofs.XPath.Order
import XPathBench.Proofs.XPath.ResultTypes

/-!
# Selections

The places that an expression selects are some of those of the document, listed as the document
lists them, however the expression came by them.

* `Value.Listed`: the places of a value are listed as those of a document
* `listed_of_evaluate`: the values of expressions are
* `Place.pairwise_of_listed`: places so listed, no namespaces among them, are in document order
* `pairwise_of_nodes?`: results list places in document order, however these are given
* `evaluate_union_comm`: a union selects the same in either order
-/

namespace XPathBench.XPath

open Xml (Document)
open Environment

/-! ## Filters -/

section Filters

variable {α ε : Type} {f : α → Except ε Bool} {xs kept : List α}

theorem exists_of_filterAuxM {acc out : List α} (h : xs.filterAuxM f acc = .ok out) :
    ∃ kept : List α, kept.Sublist xs ∧ out = kept.reverse ++ acc := by
  induction xs generalizing acc with
  | nil =>
    cases h
    exact ⟨[], .slnil, rfl⟩
  | cons x xs ih =>
    obtain ⟨keep, -, h⟩ := bind_eq_ok.mp h
    obtain ⟨kept, hkept, rfl⟩ := ih h
    cases keep with
    | false => exact ⟨kept, hkept.cons x, rfl⟩
    | true => exact ⟨x :: kept, hkept.cons_cons x, by simp⟩

/-- A filter keeps the order, whatever it asks of each element. -/
theorem sublist_of_filterM (h : xs.filterM f = .ok kept) : kept.Sublist xs := by
  obtain ⟨out, hout, h⟩ := bind_eq_ok.mp h
  obtain ⟨kept, hkept, rfl⟩ := exists_of_filterAuxM hout
  cases h
  rw [List.append_nil, List.reverse_reverse]
  exact hkept

end Filters

/-! ## Places listed as those of a document -/

variable {env : Environment} {focus : Focus} {document : Document} {places kept : List Place}
  {v w : Value}

/-- The places of a value are some of those of a document, in the order in which it lists them. -/
def Value.Listed (document : Document) : Value → Prop
  | nodeSet places => places.Sublist (Place.ofDocument document)
  | _ => True

theorem placesOf_eq_ok (h : placesOf v = .ok places) : v = .nodeSet places := by
  cases v with
  | nodeSet _ =>
    cases h
    rfl
  | _ => cases h

theorem Place.sublist_inDocumentOrder :
    (inDocumentOrder document places).Sublist (ofDocument document) :=
  List.filter_sublist

theorem map_place_foci : (foci places).map (·.place) = places := by
  rw [foci, List.map_map]
  exact List.zipIdx_map_fst 1 places

theorem sublist_of_keepMatching {predicate : Focus → Evaluated Value}
    (h : keepMatching predicate places = .ok kept) : kept.Sublist places := by
  obtain ⟨foci, hfoci, h⟩ := bind_eq_ok.mp h
  cases h
  have hsublist := (sublist_of_filterM hfoci).map (·.place)
  rwa [map_place_foci] at hsublist

/-- A step lists the places that it leads to anew. -/
theorem sublist_of_follow {step : Step} {reached : List Place}
    (h : step.follow env places = .ok reached) :
    reached.Sublist (Place.ofDocument env.document) := by
  obtain ⟨axis, test, predicates⟩ := step
  obtain ⟨lists, -, h⟩ := bind_eq_ok.mp h
  cases h
  exact Place.sublist_inDocumentOrder

theorem sublist_of_followSteps {steps : List Step} {reached : List Place}
    (hplaces : places.Sublist (Place.ofDocument env.document))
    (h : followSteps env places steps = .ok reached) :
    reached.Sublist (Place.ofDocument env.document) := by
  induction steps generalizing places with
  | nil =>
    cases h
    exact hplaces
  | cons step steps ih =>
    obtain ⟨later, hlater, h⟩ := bind_eq_ok.mp h
    exact ih (sublist_of_follow hlater) h

/-- A union lists the places that its operands select anew. -/
theorem exists_of_evaluate_union {left right : Expr}
    (h : (Expr.binary .union left right).evaluate env focus = .ok v) :
    ∃ first second, left.evaluate env focus = .ok (.nodeSet first) ∧
      right.evaluate env focus = .ok (.nodeSet second) ∧
        v = .nodeSet (Place.inDocumentOrder env.document (first ++ second)) := by
  obtain ⟨a, ha, h⟩ := bind_eq_ok.mp h
  obtain ⟨first, hfirst, h⟩ := bind_eq_ok.mp h
  obtain ⟨b, hb, h⟩ := bind_eq_ok.mp h
  obtain ⟨second, hsecond, h⟩ := bind_eq_ok.mp h
  cases h
  obtain rfl := placesOf_eq_ok hfirst
  obtain rfl := placesOf_eq_ok hsecond
  exact ⟨first, second, ha, hb, rfl⟩

/-! ## Values of expressions -/

theorem listed_of_type (h : v.type ≠ .nodeSet) : v.Listed document := by
  cases v with
  | nodeSet places => exact absurd rfl h
  | _ => trivial

theorem type_of_valueOf {name : Xml.PrefixedName} (h : env.valueOf name = .ok v) :
    v.type = .string := by
  obtain ⟨uri, -, h⟩ := bind_eq_ok.mp h
  cases uri with
  | some uri => cases h
  | none =>
    dsimp only at h
    split at h
    · cases h
      rfl
    · cases h

theorem type_of_evaluate_call {name : Xml.PrefixedName} {arguments : List Expr}
    (h : (Expr.call name arguments).evaluate env focus = .ok v) : v.type ≠ .nodeSet := by
  obtain ⟨f, -, h⟩ := bind_eq_ok.mp h
  obtain ⟨values, -, h⟩ := bind_eq_ok.mp h
  split at h
  · next value happly =>
    cases h
    rw [Function.type_of_apply happly]
    intro htype
    cases f <;> cases htype
  · cases h

theorem type_of_evaluate_binary {op : BinaryOp} {left right : Expr} (hop : op ≠ .union)
    (h : (Expr.binary op left right).evaluate env focus = .ok v) : v.type ≠ .nodeSet := by
  rw [Expr.yields_binary _ _ _ h]
  cases op with
  | union => exact absurd rfl hop
  | _ => exact nofun

/-- At a place of the document an expression selects places as the document lists them. The
recursion is on the expressions that places are taken from; predicates only choose among them. -/
theorem listed_of_evaluate (hfocus : focus.place ∈ Place.ofDocument env.document) {v : Value} :
    {e : Expr} → e.evaluate env focus = .ok v → v.Listed env.document
  | .binary op left right, h => by
    by_cases hop : op = .union
    · subst hop
      obtain ⟨first, second, -, -, rfl⟩ := exists_of_evaluate_union h
      exact Place.sublist_inDocumentOrder
    · exact listed_of_type (type_of_evaluate_binary hop h)
  | .negate _, h => listed_of_type (by rw [Expr.yields_negate _ _ _ h]; exact nofun)
  | .literal _, h => listed_of_type (by rw [Expr.yields_literal _ _ _ h]; exact nofun)
  | .number _, h => listed_of_type (by rw [Expr.yields_number _ _ _ h]; exact nofun)
  | .variable _, h => listed_of_type (by rw [type_of_valueOf h]; exact nofun)
  | .call _ _, h => listed_of_type (type_of_evaluate_call h)
  | .contextNode, h => by
    cases h
    exact List.singleton_sublist.mpr hfocus
  | .root, h => by
    cases h
    exact List.singleton_sublist.mpr List.mem_cons_self
  | .path start steps, h => by
    obtain ⟨value, hvalue, h⟩ := bind_eq_ok.mp h
    obtain ⟨places, hplaces, h⟩ := bind_eq_ok.mp h
    obtain ⟨reached, hreached, h⟩ := bind_eq_ok.mp h
    cases h
    obtain rfl := placesOf_eq_ok hplaces
    exact sublist_of_followSteps (listed_of_evaluate hfocus hvalue) hreached
  | .filter nodes predicate, h => by
    obtain ⟨value, hvalue, h⟩ := bind_eq_ok.mp h
    obtain ⟨places, hplaces, h⟩ := bind_eq_ok.mp h
    obtain ⟨kept, hkept, h⟩ := bind_eq_ok.mp h
    cases h
    obtain rfl := placesOf_eq_ok hplaces
    exact (sublist_of_keepMatching hkept).trans (listed_of_evaluate hfocus hvalue)

/-! ## Document order -/

namespace Place

/-- Places listed as those of a document, none of which is a namespace, are the root and places
below it. -/
theorem sublist_subtree_of_listed (h : places.Sublist (ofDocument document))
    (hkinds : ∀ p ∈ places, p.kind ≠ .namespaceBinding) :
    places.Sublist (root document).subtree := by
  have hfilter := h.filter fun p => p.kind ≠ .namespaceBinding
  have hplaces : places.filter (fun p => p.kind ≠ .namespaceBinding) = places :=
    List.filter_eq_self.mpr fun p hp => decide_eq_true (hkinds p hp)
  have hnamespaces : ((root document).subtree.flatMap namespaces).filter
      (fun p => p.kind ≠ .namespaceBinding) = [] := by
    apply List.filter_eq_nil_iff.mpr
    intro p hp
    obtain ⟨q, -, hp⟩ := List.mem_flatMap.mp hp
    simp [kind_of_mem_namespaces hp]
  rw [hplaces, ofDocument, List.filter_append, hnamespaces, List.append_nil] at hfilter
  exact hfilter.trans List.filter_sublist

/-- Places listed as those of a document are different and in document order, if none of them is a
namespace. -/
theorem pairwise_of_listed (h : places.Sublist (ofDocument document))
    (hkinds : ∀ p ∈ places, p.kind ≠ .namespaceBinding) :
    places.Pairwise fun p q => p.same q = false ∧ p.Before q := by
  have hbefore := (pairwise_subtree document).sublist (sublist_subtree_of_listed h hkinds)
  exact hbefore.imp fun hpq => ⟨hpq.not_same, hpq⟩

theorem mem_inDocumentOrder {p : Place} : p ∈ inDocumentOrder document places ↔
    p ∈ ofDocument document ∧ ∃ q ∈ places, p.same q = true := by
  rw [inDocumentOrder, List.mem_filter, List.any_eq_true]

/-- Of different places those are chosen that are the same as one of some of them. -/
theorem filter_any_same {all : List Place} (h : places.Sublist all)
    (hall : all.Pairwise fun p q => p.same q = false) :
    all.filter (fun p => places.any p.same) = places := by
  induction h with
  | slnil => rfl
  | @cons places all a h ih =>
    obtain ⟨ha, hall⟩ := List.pairwise_cons.mp hall
    rw [List.filter_cons_of_neg, ih hall]
    rw [Bool.not_eq_true, List.any_eq_false]
    exact fun q hq => Bool.not_eq_true _ ▸ ha q (h.subset hq)
  | @cons_cons places all a h ih =>
    obtain ⟨ha, hall⟩ := List.pairwise_cons.mp hall
    have hrest : all.filter (fun p => (a :: places).any p.same) =
        all.filter fun p => places.any p.same := by
      apply List.filter_congr
      intro p hp
      rw [List.any_cons, same_comm, ha p hp, Bool.false_or]
    rw [List.filter_cons_of_pos, hrest, ih hall]
    rw [List.any_cons, same_self, Bool.true_or]

/-- Places listed as those of a document are listed so again. -/
theorem inDocumentOrder_of_listed (h : places.Sublist (ofDocument document))
    (hkinds : ∀ p ∈ places, p.kind ≠ .namespaceBinding) :
    inDocumentOrder document places = places := by
  have hnamespaces : ((root document).subtree.flatMap namespaces).filter
      (fun p => places.any p.same) = [] := by
    apply List.filter_eq_nil_iff.mpr
    intro p hp
    obtain ⟨q, -, hp⟩ := List.mem_flatMap.mp hp
    rw [Bool.not_eq_true, List.any_eq_false]
    intro r hr hsame
    exact hkinds r hr (kind_eq_of_same hsame (kind_of_mem_namespaces hp))
  have hdifferent : (root document).subtree.Pairwise fun p q => p.same q = false :=
    (pairwise_subtree document).imp Before.not_same
  rw [inDocumentOrder, ofDocument, List.filter_append, hnamespaces, List.append_nil]
  exact filter_any_same (sublist_subtree_of_listed h hkinds) hdifferent

theorem inDocumentOrder_append_comm {first second : List Place} :
    inDocumentOrder document (first ++ second) = inDocumentOrder document (second ++ first) := by
  unfold inDocumentOrder
  congr 1
  funext p
  rw [List.any_append, List.any_append, Bool.or_comm]

end Place

/-- However the places of a node-set are given, results list them in document order, each once,
unless there are namespaces among them. They list all that are places of the document. -/
theorem pairwise_of_nodes? {selected : List Place}
    (h : Value.nodes? document (.nodeSet selected) = some places)
    (hkinds : ∀ p ∈ places, p.kind ≠ .namespaceBinding) :
    (places.Pairwise fun p q => p.same q = false ∧ p.Before q) ∧
      ∀ p, p ∈ places ↔ p ∈ Place.ofDocument document ∧ ∃ q ∈ selected, p.same q = true := by
  cases h
  exact ⟨Place.pairwise_of_listed Place.sublist_inDocumentOrder hkinds,
    fun p => Place.mem_inDocumentOrder⟩

/-- A union selects the same places in either order. -/
theorem evaluate_union_comm {left right : Expr}
    (hv : (Expr.binary .union left right).evaluate env focus = .ok v)
    (hw : (Expr.binary .union right left).evaluate env focus = .ok w) : v = w := by
  obtain ⟨first, second, hfirst, hsecond, rfl⟩ := exists_of_evaluate_union hv
  obtain ⟨second', first', hsecond', hfirst', rfl⟩ := exists_of_evaluate_union hw
  rw [hfirst] at hfirst'
  rw [hsecond] at hsecond'
  cases hfirst'
  cases hsecond'
  rw [Place.inDocumentOrder_append_comm]

end XPathBench.XPath

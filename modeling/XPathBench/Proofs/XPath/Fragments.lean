import XPathBench.Proofs.Xml.Equality
import XPathBench.Proofs.Xml.Proper
import XPathBench.XPath.Engine

/-!
# Fragments of documents

The nodes that the markup of a place consists of, for the places that have anything below them.

* `Place.fragment`: the nodes that are written for a place
* `proper_fragment`: in a document that was read, they were read
-/

namespace XPathBench.XPath

open Xml

/-- The nodes that are written for a place: all of a document, or an element. -/
def Place.fragment : Place → List Node
  | root document => document.children
  | node _ _ n => [n]
  | _ => []

theorem proper_element {tag : Tag} {children : List Node}
    (hproper : (Node.element tag children).Proper) (hapart : (Node.element tag children).Apart) :
    Document.Proper ⟨[.element tag children]⟩ where
  children := ⟨hproper, trivial⟩
  apart := ⟨hapart, nofun, trivial⟩
  oneElement := ⟨[], tag, children, [], rfl, nofun, nofun⟩

theorem Place.kind_of_mem_namespaces {p q : Place} (h : q ∈ p.namespaces) :
    q.kind = .namespaceBinding := by
  rw [namespaces] at h
  split at h
  · obtain ⟨b, -, rfl⟩ := List.mem_map.mp h
    rfl
  · cases h

/-- Only a namespace is the same as a namespace. -/
theorem Place.kind_eq_of_same {p q : Place} (h : p.same q = true)
    (hp : p.kind = .namespaceBinding) : q.kind = .namespaceBinding := by
  cases p with
  | binding owner name uri =>
    cases q with
    | binding _ _ _ => rfl
    | _ => cases h
  | node _ _ n => cases n <;> cases hp
  | _ => cases hp

/-- Attributes are numbered from the first one on. -/
theorem exists_attr_of_attributesFrom {owner : Place} {as : List Attribute} {index : Nat}
    {q : Place} (h : q ∈ owner.attributesFrom index as) :
    ∃ i a, index ≤ i ∧ q = .attr owner i a := by
  induction as generalizing index with
  | nil => cases h
  | cons a as ih =>
    rcases List.mem_cons.mp h with rfl | h
    · exact ⟨index, a, Nat.le_refl index, rfl⟩
    · obtain ⟨i, b, hle, rfl⟩ := ih h
      exact ⟨i, b, by omega, rfl⟩

mutual

theorem proper_of_subtreeOf {parent : Place} {index : Nat} {q : Place} : {n : Node} →
    n.Proper → n.Apart → q ∈ Place.subtreeOf parent index n → q.kind.hasSubtree = true →
      Document.Proper ⟨q.fragment⟩
  | .element tag children, hproper, hapart, hq, hkind => by
    rw [Place.subtreeOf] at hq
    rcases List.mem_cons.mp hq with rfl | hq
    · exact proper_element hproper hapart
    rcases List.mem_append.mp hq with hq | hq
    · obtain ⟨i, a, -, rfl⟩ := exists_attr_of_attributesFrom (List.mem_reverse.mp hq)
      cases hkind
    · exact proper_of_subtreesOf hproper.2 hapart hq hkind
  | .text _, _, _, hq, hkind | .comment _, _, _, hq, hkind | .instruction _ _, _, _, hq, hkind => by
    obtain rfl := List.mem_singleton.mp hq
    cases hkind

theorem proper_of_subtreesOf {parent : Place} {index : Nat} {q : Place} :
    {nodes : List Node} → AllProper nodes → AllApart nodes →
      q ∈ Place.subtreesOf parent index nodes → q.kind.hasSubtree = true →
        Document.Proper ⟨q.fragment⟩
  | [], _, _, hq, _ => nomatch hq
  | n :: rest, hproper, hapart, hq, hkind => by
    rcases List.mem_append.mp hq with hq | hq
    · exact proper_of_subtreeOf hproper.1 hapart.1 hq hkind
    · exact proper_of_subtreesOf hproper.2 hapart.2.2 hq hkind

end

/-! ## Places below a place -/

namespace Place

theorem mem_subtree_self (p : Place) : p ∈ p.subtree := by
  cases p with
  | node parent index n => cases n <;> exact List.mem_cons_self
  | _ => exact List.mem_cons_self

theorem subtree_subset_subtreesOf {parent p : Place} {nodes : List Node} {index : Nat}
    (h : p ∈ parent.childrenFrom index nodes) : p.subtree ⊆ subtreesOf parent index nodes := by
  induction nodes generalizing index with
  | nil => cases h
  | cons n rest ih =>
    rcases List.mem_cons.mp h with rfl | h
    · exact List.subset_append_left _ _
    · exact List.subset_append_of_subset_right _ (ih h)

/-- What is below a child is below its parent. -/
theorem subtree_subset {p q : Place} (h : q ∈ p.children) : q.subtree ⊆ p.subtree := by
  match p with
  | .root _ => exact List.subset_cons_of_subset _ (subtree_subset_subtreesOf h)
  | .node _ _ (.element _ _) =>
    exact List.subset_cons_of_subset _
      (List.subset_append_of_subset_right _ (subtree_subset_subtreesOf h))

theorem mem_subtree_of_mem_children {p q : Place} (h : q ∈ p.children) : q ∈ p.subtree :=
  subtree_subset h q.mem_subtree_self

end Place

/-! ## Documents that were read -/

theorem load_eq_ok_iff {text : String} {d : Document} :
    Document.load text = .ok d ↔ Document.parse text = .ok d := by
  unfold Document.load
  cases Document.parse text <;> simp

/-- The elements of a document that was read, and its root, consist of nodes that were read. -/
theorem proper_fragment {text : String} {d : Document} {p : Place}
    (h : Document.load text = .ok d) (hp : p ∈ (Place.root d).subtree)
    (hkind : p.kind.hasSubtree = true) : Document.Proper ⟨p.fragment⟩ := by
  have hd := proper_of_parse (load_eq_ok_iff.mp h)
  rcases List.mem_cons.mp hp with rfl | hp
  · exact hd
  · exact proper_of_subtreesOf hd.children hd.apart hp hkind

/-! ## The two ways of writing -/

/-- How a place is written: as it is stored, or laid out afresh with a margin for each depth. -/
inductive Mode where
  | stored
  | laidOut (margin : Nat → String)

namespace Mode

/-- The nodes that are written for given ones: blank text is dropped before they are laid out. -/
def nodes : Mode → List Node → List Node
  | stored, nodes => nodes
  | laidOut _, nodes => nodes.map Node.withoutBlankText

theorem proper_nodes {ns : List Node} (h : Document.Proper ⟨ns⟩) :
    (mode : Mode) → Document.Proper ⟨mode.nodes ns⟩
  | stored => h
  | laidOut _ => h.map_withoutBlankText

/-- Pieces as text. -/
def join : Mode → List Xml.Piece → String
  | stored, pieces => Piece.raw pieces
  | laidOut margin, pieces => Piece.layOut margin pieces

end Mode

/-- A place as it is written. -/
def Place.written (p : Place) : Mode → String
  | .stored => p.markup
  | .laidOut margin => p.pretty margin

/-- The pieces of which a place is written. -/
def Place.emitted (p : Place) (mode : Mode) : List Xml.Piece :=
  piecesOfAll [] (mode.nodes p.fragment)

theorem Place.written_eq {p : Place} (hkind : p.kind.hasSubtree = true) (mode : Mode) :
    p.written mode = mode.join (p.emitted mode) := by
  cases p with
  | root document => cases mode <;> rfl
  | node parent index n =>
    cases n with
    | element tag children =>
      have hone {m : Node} : piecesOfAll [] [m] = m.pieces [] := List.append_nil _
      cases mode with
      | stored => exact congrArg Piece.raw hone.symm
      | laidOut margin => exact congrArg (Piece.layOut margin) hone.symm
    | _ => cases hkind
  | attr => cases hkind
  | binding => cases hkind

end XPathBench.XPath

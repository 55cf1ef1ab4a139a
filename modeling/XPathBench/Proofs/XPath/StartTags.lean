import XPathBench.Proofs.XPath.Fragments
import XPathBench.Proofs.Xml.Declarations

/-!
# Start tags of fragments

Whatever place of a document is written, and however it is laid out, its start tags declare the
namespaces that they use: all of them, once, and only where it is necessary.
-/

namespace XPathBench.XPath

open Xml

theorem Mode.tagsOfAll_nodes (mode : Mode) (nodes : List Node) :
    tagsOfAll (mode.nodes nodes) = tagsOfAll nodes := by
  cases mode with
  | stored => rfl
  | laidOut => exact tagsOfAll_map_withoutBlankText nodes

theorem shows_nil : Scope.Shows [] [] := fun _ => rfl

/-- Among the pieces of which a place is written, the start tags read with the declarations around
them are faithful to the elements below the place, and all of them are closed at the end. The writer
itself leaves an element with the scope with which it came to it. -/
theorem startTags_faithful {text : String} {d : Document} {p : Place}
    (h : Document.load text = .ok d) (hp : p ∈ (Place.root d).subtree)
    (hkind : p.kind.hasSubtree = true) (mode : Mode) :
    p.written mode = mode.join (p.emitted mode) ∧
      List.Forall₂ TagInScope.Faithful (readTags [] (p.emitted mode)).1 (tagsOfAll p.fragment) ∧
      (readTags [] (p.emitted mode)).2 = [] ∧
      ∀ (scope : Scope) (n : Node), n.run scope = (n.pieces scope, scope) := by
  have hproper := (mode.proper_nodes (proper_fragment h hp hkind)).children
  obtain ⟨hread, hclosed⟩ := readAs_piecesOfAll shows_nil hproper
  rw [mode.tagsOfAll_nodes] at hread
  exact ⟨Place.written_eq hkind mode, hread, hclosed, Node.run_eq⟩

/-- An element that uses a prefix which its parent binds, written without its parent. -/
theorem startTags_faithful_detached :
    ∃ a b : Node, ∃ p : Place, p = .node (.node (.root ⟨[a]⟩) 0 a) 0 b ∧
      Document.load "<a xmlns:p=\"u\"><p:b/></a>" = .ok ⟨[a]⟩ ∧
      p ∈ (Place.root ⟨[a]⟩).subtree ∧ p.kind.hasSubtree = true ∧
      List.Forall₂ TagInScope.Faithful (readTags [] (p.emitted .stored)).1
        (tagsOfAll p.fragment) := by
  let b : Node := .element ⟨⟨some "u", some "p", "b"⟩, [], []⟩ []
  let a : Node := .element ⟨⟨none, none, "a"⟩, [("xml", xmlUri), ("p", "u")], []⟩ [b]
  let p : Place := .node (.node (.root ⟨[a]⟩) 0 a) 0 b
  have hload : Document.load "<a xmlns:p=\"u\"><p:b/></a>" = .ok ⟨[a]⟩ :=
    load_eq_ok_iff.mpr (by decide +kernel)
  have ha : .node (.root ⟨[a]⟩) 0 a ∈ (Place.root ⟨[a]⟩).children := List.mem_cons_self
  have hp : p ∈ (Place.root ⟨[a]⟩).subtree :=
    Place.subtree_subset ha (Place.mem_subtree_of_mem_children List.mem_cons_self)
  exact ⟨a, b, p, rfl, hload, hp, rfl, (startTags_faithful hload hp rfl .stored).2.1⟩

end XPathBench.XPath

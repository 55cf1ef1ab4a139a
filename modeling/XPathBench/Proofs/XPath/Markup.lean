import XPathBench.Proofs.XPath.Fragments
import XPathBench.Proofs.Xml.RoundTrip

/-!
# Markup of fragments

The markup of a place is a document of its own. Reading it gives what stands below the place, as far
as its tags are read as they were: a reader inside written elements may take the default namespace
or the prefix `xml` for something else than the writer.

* `Place.markup_eq`: the characters of the markup of a place
* `load_markup_iff`: when the markup of a place is read as the place
-/

namespace XPathBench.XPath

open Xml

theorem Place.markup_eq {p : Place} (hkind : p.kind.hasSubtree = true) :
    p.markup = String.ofList (spread [] [] p.fragment) := by
  rw [spread_nil, ← raw_toList, String.ofList_toList]
  exact p.written_eq hkind .stored

/-- What the markup of a place is read as. -/
theorem load_markup {p : Place} (hproper : Document.Proper ⟨p.fragment⟩)
    (hkind : p.kind.hasSubtree = true) : ∃ d, Document.load p.markup = .ok d ∧
      contentOfAll d.children = rereadAll [] p.fragment := by
  obtain ⟨d, hparse, hd⟩ := parse_spread hproper (List.forall_mem_nil _)
  exact ⟨d, by rw [Place.markup_eq hkind]; exact load_eq_ok_iff.mpr hparse, hd⟩

/-- The markup of an element of a document, or of all of it, is read again. What is read are the
nodes that were written but for the namespaces of misread tags, and the very nodes that were written
if and only if no tag among them is misread. -/
theorem load_markup_iff {text : String} {d : Document} {p : Place}
    (h : Document.load text = .ok d) (hp : p ∈ (Place.root d).subtree)
    (hkind : p.kind.hasSubtree = true) : ∃ d', Document.load p.markup = .ok d' ∧
      contentOfAll d'.children = rereadAll [] p.fragment ∧
      (contentOfAll d'.children = contentOfAll p.fragment ↔ AllReadBack [] p.fragment) := by
  have hproper := proper_fragment h hp hkind
  obtain ⟨d', hload, hread⟩ := load_markup hproper hkind
  refine ⟨d', hload, hread, ?_⟩
  rw [hread]
  exact rereadAll_eq_iff (List.forall_mem_nil _) hproper.children

/-- An element that takes the prefix in its name from outside, and that holds empty text. -/
theorem load_markup_iff_detached :
    ∃ a b : Node, ∃ p : Place, p = .node (.node (.root ⟨[a]⟩) 0 a) 0 b ∧
      Document.load "<a xmlns:p=\"u\"><p:b><![CDATA[]]></p:b></a>" = .ok ⟨[a]⟩ ∧
      p ∈ (Place.root ⟨[a]⟩).subtree ∧ p.kind.hasSubtree = true ∧
      ∃ d', Document.load p.markup = .ok d' ∧
        contentOfAll d'.children = contentOfAll p.fragment := by
  let b : Node := .element ⟨⟨some "u", some "p", "b"⟩, [], []⟩ [.text ""]
  let a : Node := .element ⟨⟨none, none, "a"⟩, [("xml", xmlUri), ("p", "u")], []⟩ [b]
  let p : Place := .node (.node (.root ⟨[a]⟩) 0 a) 0 b
  have hload : Document.load "<a xmlns:p=\"u\"><p:b><![CDATA[]]></p:b></a>" = .ok ⟨[a]⟩ :=
    load_eq_ok_iff.mpr (by decide +kernel)
  have ha : .node (.root ⟨[a]⟩) 0 a ∈ (Place.root ⟨[a]⟩).children := List.mem_cons_self
  have hp : p ∈ (Place.root ⟨[a]⟩).subtree :=
    Place.subtree_subset ha (Place.mem_subtree_of_mem_children List.mem_cons_self)
  obtain ⟨d', hload', -, hsame⟩ := load_markup_iff hload hp rfl
  exact ⟨a, b, p, rfl, hload, hp, rfl, d', hload', hsame.mpr (by decide)⟩

/-- Where the default namespace was taken back twice, the markup takes it back once, and the inner
element is read with the namespace of the outermost one. -/
theorem markup_forgets_taken_back :
    ¬ ∀ (text : String) (d : Document) (p : Place), Document.load text = .ok d →
      p ∈ (Place.root d).subtree → p.kind.hasSubtree = true →
      ∃ d', Document.load p.markup = .ok d' ∧
        contentOfAll d'.children = contentOfAll p.fragment := by
  let c : Node := .element ⟨⟨none, none, "c"⟩, [], []⟩ []
  let b : Node := .element ⟨⟨none, none, "b"⟩, [], []⟩ [c]
  let d : Document := ⟨[.element ⟨⟨some "u", none, "a"⟩, [("xml", xmlUri)], []⟩ [b]]⟩
  have hload : Document.load "<a xmlns=\"u\"><b xmlns=\"\"><c xmlns=\"\"/></b></a>" = .ok d :=
    load_eq_ok_iff.mpr (by decide +kernel)
  have hp : Place.root d ∈ (Place.root d).subtree := List.mem_cons_self
  intro hclaim
  have hproper := proper_fragment hload hp rfl
  obtain ⟨d', hload', hsame⟩ := hclaim _ d (.root d) hload hp rfl
  obtain ⟨d'', hload'', hread⟩ := load_markup hproper rfl
  rw [hload''] at hload'
  cases hload'
  have hmisread : ¬ AllReadBack [] d.children := by decide
  exact hmisread ((rereadAll_eq_iff (List.forall_mem_nil _) hproper.children).mp
    (hread.symm.trans hsame))

end XPathBench.XPath

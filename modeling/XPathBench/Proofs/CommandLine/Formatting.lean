import XPathBench.Proofs.CommandLine.Outputs
import XPathBench.Proofs.XPath.Fragments
import XPathBench.Proofs.Xml.Rewriting

/-!
# Formatting again

What the command `format` prints is a document, and formatting it prints it again as far as its
tags are read as they were written.
-/

namespace XPathBench.CommandLine

open Xml XPath

variable {text : String} {d : Document}

theorem blankMargin_spaces (size : Nat) : BlankMargin (spaces size).margin := by
  intro depth c hc
  rw [Indent.margin, String.toList_ofList] at hc
  rw [(List.mem_replicate.mp hc).2]
  rfl

/-- What is printed is read again, with its line breaks as text. -/
theorem load_formatted (size : Nat) (h : Document.load text = .ok d) :
    ∃ d', Document.load (formatOutput size text).text = .ok d' ∧
      contentOfAll d'.children = rereadAll []
        ((dropBlankText d.children).map fun n => n.spaced (spaces size).margin 0) := by
  obtain ⟨d', hparse, hcontent⟩ :=
    parse_pretty (blankMargin_spaces size) (proper_of_parse (load_eq_ok_iff.mp h))
  rw [formatOutput_eq size h]
  exact ⟨d', load_eq_ok_iff.mpr hparse, hcontent⟩

/-- What is printed for a document is a document. Formatting it prints it again, character for
character, if and only if no tag among those printed is misread. -/
theorem formatOutput_fixed_iff (size : Nat) (h : Document.load text = .ok d) :
    ∃ d', Document.load (formatOutput size text).text = .ok d' ∧
      (formatOutput size (formatOutput size text).text = formatOutput size text ↔
        AllReadBack [] (dropBlankText d.children)) := by
  obtain ⟨d', hload, hcontent⟩ := load_formatted size h
  refine ⟨d', hload, ?_⟩
  rw [formatOutput_eq size hload, formatOutput_eq size h, Output.mk.injEq, and_iff_left rfl]
  exact pretty_pretty_iff (blankMargin_spaces size) (proper_of_parse (load_eq_ok_iff.mp h))
    (proper_of_parse (load_eq_ok_iff.mp hload)) hcontent

/-- A namespace is taken back, and blank text stands next to other text. -/
theorem formatOutput_fixed_mixed :
    ∃ d, Document.load "<a xmlns=\"u\"> <b xmlns=\"\"/> x</a>" = .ok d ∧
      formatOutput 2 (formatOutput 2 "<a xmlns=\"u\"> <b xmlns=\"\"/> x</a>").text =
        formatOutput 2 "<a xmlns=\"u\"> <b xmlns=\"\"/> x</a>" := by
  let b : Node := .element ⟨⟨none, none, "b"⟩, [], []⟩ []
  let d : Document :=
    ⟨[.element ⟨⟨some "u", none, "a"⟩, [("xml", xmlUri)], []⟩ [.text " ", b, .text " x"]]⟩
  have hload : Document.load "<a xmlns=\"u\"> <b xmlns=\"\"/> x</a>" = .ok d :=
    load_eq_ok_iff.mpr (by decide +kernel)
  obtain ⟨_, _, hfixed⟩ := formatOutput_fixed_iff 2 hload
  exact ⟨d, hload, hfixed.mpr (by decide)⟩

/-- Where the default namespace was taken back twice, it is taken back once in what is printed, and
formatting that prints the namespace of the outermost element for the inner one. -/
theorem formatOutput_forgets_taken_back :
    ¬ ∀ (size : Nat) (text : String) (d : Document), Document.load text = .ok d →
      formatOutput size (formatOutput size text).text = formatOutput size text := by
  let c : Node := .element ⟨⟨none, none, "c"⟩, [], []⟩ []
  let b : Node := .element ⟨⟨none, none, "b"⟩, [], []⟩ [c]
  let d : Document := ⟨[.element ⟨⟨some "u", none, "a"⟩, [("xml", xmlUri)], []⟩ [b]]⟩
  have hload : Document.load "<a xmlns=\"u\"><b xmlns=\"\"><c xmlns=\"\"/></b></a>" = .ok d :=
    load_eq_ok_iff.mpr (by decide +kernel)
  intro hclaim
  have hfixed := hclaim 1 _ d hload
  obtain ⟨d', hload', hcontent⟩ := load_formatted 1 hload
  rw [formatOutput_eq 1 hload', formatOutput_eq 1 hload] at hfixed
  have hproper := proper_of_parse (load_eq_ok_iff.mp hload)
  have hback := (pretty_pretty_iff (blankMargin_spaces 1) hproper
    (proper_of_parse (load_eq_ok_iff.mp hload')) hcontent).mp (congrArg Output.text hfixed)
  exact absurd hback (by decide)

end XPathBench.CommandLine

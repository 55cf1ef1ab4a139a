import XPathBench.Proofs.CommandLine.Formatting
import XPathBench.Proofs.Xml.Prose

/-!
# Formatting keeps prose

Text that is more than white space is found in what is written for any element around it, and in the
document that is read from what the command `format` prints.

* `infix_pretty`: texts stand between tags in what is laid out
* `formatOutput_keeps_prose`: what formatting keeps
* `formatOutput_drops_blank`: white space is that of Unicode, which is more than that of XML
-/

namespace XPathBench.CommandLine

open Xml XPath

/-! ## Texts below a place -/

section
variable {s : String} {parent : Place} {index : Nat}

mutual

theorem mem_texts_of_subtreeOf {above : Place} {i : Nat} : {n : Node} →
    Place.node parent index (.text s) ∈ Place.subtreeOf above i n → s ∈ n.texts
  | .element tag children, h => by
    rw [Place.subtreeOf] at h
    rcases List.mem_cons.mp h with h | h
    · cases h
    rcases List.mem_append.mp h with h | h
    · obtain ⟨i, a, -, h⟩ := exists_attr_of_attributesFrom (List.mem_reverse.mp h)
      cases h
    · exact mem_texts_of_subtreesOf h
  | .text _, h => by
    cases List.mem_singleton.mp h
    exact List.mem_singleton_self s
  | .comment _, h | .instruction _ _, h => by cases List.mem_singleton.mp h

theorem mem_texts_of_subtreesOf {above : Place} {i : Nat} : {nodes : List Node} →
    Place.node parent index (.text s) ∈ Place.subtreesOf above i nodes → s ∈ textsOfAll nodes
  | [], h => nomatch h
  | n :: rest, h => by
    rcases List.mem_append.mp h with h | h
    · exact List.mem_append_left _ (mem_texts_of_subtreeOf h)
    · exact List.mem_append_right _ (mem_texts_of_subtreesOf h)

end

/-- The texts below an element, or below the root, are those of the nodes that are written for it.
-/
theorem mem_texts_fragment {p : Place} (hkind : p.kind.hasSubtree = true)
    (h : Place.node parent index (.text s) ∈ p.subtree) : s ∈ textsOfAll p.fragment := by
  cases p with
  | root document =>
    rcases List.mem_cons.mp h with h | h
    · cases h
    · exact mem_texts_of_subtreesOf h
  | node above i n => exact List.mem_append_left _ (mem_texts_of_subtreeOf h)
  | attr => cases hkind
  | binding => cases hkind

end

variable {text : String} {d : Document}

/-- A text that is not blank stands between tags, unchanged but for escaping, in what is laid out
for an element around it. -/
theorem infix_pretty (h : Document.load text = .ok d) {p : Place} (hp : p ∈ (Place.root d).subtree)
    (hkind : p.kind.hasSubtree = true) {parent : Place} {index : Nat} {s : String}
    (hmem : Place.node parent index (.text s) ∈ p.subtree) (hs : Text.allBlank s = false)
    (margin : Nat → String) :
    '>' :: ((escapeText s).toList ++ ['<']) <:+: (p.pretty margin).toList := by
  have hproper := proper_fragment h hp hkind
  have hdropped := hproper.dropBlankText
  have hframes := frames_of_not_text hdropped.oneElement.isText hdropped.apart []
    (mem_textsOfAll_dropBlankText hs _ (mem_texts_fragment hkind hmem))
  rw [dropBlankText_eq_map hproper.oneElement.isText] at hframes
  rw [show p.pretty margin = _ from Place.written_eq hkind (.laidOut margin)]
  exact hframes.infix_layOut

/-! ## What formatting keeps -/

/-- Text that is more than white space is written for every element around it, and it is the text
that is read again, under the elements that it stood in, whether the white space in what is read is
that of Unicode or that of XML. -/
theorem formatOutput_keeps_prose (h : Document.load text = .ok d) :
    (∀ p ∈ (Place.root d).subtree, p.kind.hasSubtree = true →
      ∀ parent index s, Place.node parent index (.text s) ∈ p.subtree → Text.allBlank s = false →
        ∀ indent : Indent,
          '>' :: ((escapeText s).toList ++ ['<']) <:+: (p.pretty indent.margin).toList) ∧
    ∀ size, (formatOutput size text).exitCode = 0 ∧
      ∃ d', Document.load (formatOutput size text).text = .ok d' ∧
        ∀ blank : Char → Bool, (∀ c, Text.isXmlBlank c = true → blank c = true) →
          (∀ c, blank c = true → Text.isBlank c = true) →
            proseOfAll blank d'.children = proseOfAll Text.isBlank d.children := by
  refine ⟨fun p hp hkind parent index s hmem hs indent =>
    infix_pretty h hp hkind hmem hs indent.margin, fun size => ⟨?_, ?_⟩⟩
  · rw [formatOutput_eq size h]
  · obtain ⟨d', hload, hcontent⟩ := load_formatted size h
    exact ⟨d', hload, fun blank hxml hblank =>
      proseOfAll_of_content (blankMargin_spaces size) hxml hblank hcontent⟩

/-- A character that is escaped and a no-break space beside it are kept; a no-break space alone is
not. -/
theorem formatOutput_keeps_prose_nested :
    ∃ d', Document.load (formatOutput 2 "<a>\u00a0><b>\u00a0</b></a>").text = .ok d' ∧
      proseOfAll Text.isXmlBlank d'.children =
        [.element none "a" [.text "\u00a0>", .element none "b" []]] := by
  let b : Node := .element ⟨⟨none, none, "b"⟩, [], []⟩ [.text "\u00a0"]
  let d : Document :=
    ⟨[.element ⟨⟨none, none, "a"⟩, [("xml", xmlUri)], []⟩ [.text "\u00a0>", b]]⟩
  have hload : Document.load "<a>\u00a0><b>\u00a0</b></a>" = .ok d :=
    load_eq_ok_iff.mpr (by decide +kernel)
  obtain ⟨-, d', hload', hprose⟩ := (formatOutput_keeps_prose hload).2 2
  have hd : proseOfAll Text.isBlank d.children =
      [.element none "a" [.text "\u00a0>", .element none "b" []]] := rfl
  exact ⟨d', hload', (hprose Text.isXmlBlank (fun _ => id)
    fun _ => Text.isBlank_of_isXmlBlank).trans hd⟩

/-- A no-break space is no white space to XML, but it is to Unicode: alone in an element it is lost.
-/
theorem formatOutput_drops_blank :
    ¬ ∀ (size : Nat) (text : String) (d d' : Document), Document.load text = .ok d →
      Document.load (formatOutput size text).text = .ok d' →
        proseOfAll Text.isXmlBlank d'.children = proseOfAll Text.isXmlBlank d.children := by
  let d : Document := ⟨[.element ⟨⟨none, none, "a"⟩, [("xml", xmlUri)], []⟩ [.text "\u00a0"]]⟩
  have hload : Document.load "<a>\u00a0</a>" = .ok d := load_eq_ok_iff.mpr (by decide +kernel)
  intro hclaim
  obtain ⟨d', hload', hcontent⟩ := load_formatted 1 hload
  have hprose := proseOfAll_of_content (blankMargin_spaces 1) (fun _ => id)
    (fun _ => Text.isBlank_of_isXmlBlank) hcontent
  have hkept := hprose.symm.trans (hclaim 1 _ d d' hload hload')
  have hlost : proseOfAll Text.isBlank d.children = [.element none "a" []] := rfl
  have hstored : proseOfAll Text.isXmlBlank d.children =
      [.element none "a" [.text "\u00a0"]] := rfl
  rw [hlost, hstored] at hkept
  cases hkept

end XPathBench.CommandLine

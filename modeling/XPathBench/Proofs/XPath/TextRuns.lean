import XPathBench.Proofs.XPath.Fragments

/-!
# Runs of text

Reading delivers text in parts: a text for every stretch of plain characters, every reference and
every section of character data. Loading makes one text of each run of them, in every element, and
leaves all else as it is.

* `Node.Joined`: a node and what it is with one text for each run
* `Node.swept`: the same in one pass from left to right
* `Node.SplitsTo`, `Document.SplitsTo`: one text taken apart
* `load_joins_runs`: what loading does to a document that was delivered in parts
-/

namespace XPathBench.Xml

/-! ## One text for each run -/

mutual

/-- A node, and the node with each run of text in it made one text. -/
inductive Node.Joined : Node → Node → Prop
  | element (tag : Tag) {children joined : List Node} :
      AllJoined children joined → Node.Joined (.element tag children) (.element tag joined)
  | text (value : String) : Node.Joined (.text value) (.text value)
  | comment (value : String) : Node.Joined (.comment value) (.comment value)
  | instruction (target : String) (value : Option String) :
      Node.Joined (.instruction target value) (.instruction target value)

/-- Nodes, and the nodes with each run of text made one text, among them and everywhere below. A
run ends where no text follows. -/
inductive AllJoined : List Node → List Node → Prop
  | nil : AllJoined [] []
  | run (parts : List String) {rest joined : List Node} :
      parts ≠ [] → NoTextAhead rest → AllJoined rest joined →
      AllJoined (parts.map .text ++ rest) (.text (String.join parts) :: joined)
  | other {n m : Node} {rest joined : List Node} :
      n.isText = false → Node.Joined n m → AllJoined rest joined →
      AllJoined (n :: rest) (m :: joined)

end

variable {n m : Node} {nodes rest joined : List Node}

theorem Node.Joined.isText_eq (h : n.Joined m) : m.isText = n.isText := by
  cases h <;> rfl

theorem allJoined_text (a : String) (hahead : NoTextAhead rest) (h : AllJoined rest joined) :
    AllJoined (.text a :: rest) (.text a :: joined) := by
  have hrun := AllJoined.run [a] (List.cons_ne_nil a []) hahead h
  rwa [String.join_cons, String.join_nil, String.append_empty] at hrun

/-- A node in front of others. If both are text, the text of the node belongs to the run ahead. -/
theorem allJoined_prependNode (hn : n.Joined m) (h : AllJoined rest joined) :
    AllJoined (n :: rest) (prependNode m joined) := by
  cases hn with
  | text a =>
    cases h with
    | nil => exact allJoined_text a noTextAhead_nil .nil
    | run parts _ hahead hrest =>
      have hrun := AllJoined.run (a :: parts) (List.cons_ne_nil a parts) hahead hrest
      rwa [String.join_cons] at hrun
    | other hk hjoined hrest =>
      rw [prependNode_of_noTextAhead fun _ =>
        noTextAhead_cons.mpr (hjoined.isText_eq.trans hk)]
      exact allJoined_text a (noTextAhead_cons.mpr hk) (.other hk hjoined hrest)
  | element tag hchildren => exact .other rfl (.element tag hchildren) h
  | comment value => exact .other rfl (.comment value) h
  | instruction target value => exact .other rfl (.instruction target value) h

mutual

theorem Node.joined_mergeText : (n : Node) → n.Joined n.mergeText
  | .element tag children => .element tag (allJoined_mergeTextAll children)
  | .text value => .text value
  | .comment value => .comment value
  | .instruction target value => .instruction target value

theorem allJoined_mergeTextAll : (nodes : List Node) → AllJoined nodes (mergeTextAll nodes)
  | [] => .nil
  | n :: rest => allJoined_prependNode n.joined_mergeText (allJoined_mergeTextAll rest)

end

theorem mergeTextAll_texts {parts : List String} (h : parts ≠ []) (rest : List Node) :
    mergeTextAll (parts.map .text ++ rest) =
      prependNode (.text (String.join parts)) (mergeTextAll rest) := by
  induction parts with
  | nil => exact absurd rfl h
  | cons a parts ih =>
    show prependNode (.text a) (mergeTextAll (parts.map .text ++ rest)) = _
    rw [String.join_cons]
    cases parts with
    | nil => rw [String.join_nil, String.append_empty, List.map_nil, List.nil_append]
    | cons b parts => rw [ih (List.cons_ne_nil b parts), prependNode_text_text]

theorem noTextAhead_mergeTextAll (h : NoTextAhead nodes) : NoTextAhead (mergeTextAll nodes) := by
  cases nodes with
  | nil => exact h
  | cons n rest =>
    have hn := (isText_mergeText n).trans (noTextAhead_cons.mp h)
    rw [mergeTextAll, prependNode_of_not_text hn]
    exact noTextAhead_cons.mpr hn

mutual

theorem Node.Joined.eq_mergeText : {n m : Node} → n.Joined m → m = n.mergeText
  | _, _, .element tag h => by rw [Node.mergeText, h.eq_mergeTextAll]
  | _, _, .text _ | _, _, .comment _ | _, _, .instruction _ _ => rfl

theorem AllJoined.eq_mergeTextAll : {nodes joined : List Node} → AllJoined nodes joined →
    joined = mergeTextAll nodes
  | _, _, .nil => rfl
  | _, _, .run parts hparts hahead h => by
    rw [mergeTextAll_texts hparts, h.eq_mergeTextAll,
      prependNode_of_noTextAhead fun _ => noTextAhead_mergeTextAll hahead]
  | _, _, .other hn hm h => by
    rw [mergeTextAll, h.eq_mergeTextAll, hm.eq_mergeText,
      prependNode_of_not_text ((isText_mergeText _).trans hn)]

end

/-- Joining text gives what has one text for each run, and nothing else has. -/
theorem Node.joined_iff : n.Joined m ↔ n.mergeText = m := by
  refine ⟨fun h => h.eq_mergeText.symm, ?_⟩
  rintro rfl
  exact n.joined_mergeText

/-! ## From left to right -/

mutual

/-- A node whose children are passed once from left to right. -/
def Node.swept : Node → Node
  | .element tag children => .element tag (sweep none children)
  | n => n

/-- Nodes passed from left to right. A text that was passed is kept in mind as long as text follows,
and forgotten at any other node. -/
def sweep : Option String → List Node → List Node
  | previous, [] => previous.toList.map .text
  | none, .text value :: rest => sweep (some value) rest
  | some previous, .text value :: rest => sweep (some (previous ++ value)) rest
  | previous, n :: rest => previous.toList.map .text ++ n.swept :: sweep none rest

end

theorem sweep_cons_of_not_text (h : n.isText = false) (previous : Option String)
    (rest : List Node) :
    sweep previous (n :: rest) = previous.toList.map .text ++ n.swept :: sweep none rest := by
  cases n with
  | text => cases h
  | _ => cases previous <;> rfl

theorem foldr_prependNode_of_not_text (h : n.isText = false) (previous : Option String)
    (rest : List Node) : (previous.toList.map .text).foldr prependNode (n :: rest) =
      previous.toList.map .text ++ n :: rest := by
  cases previous with
  | none => rfl
  | some value => exact prependNode_of_noTextAhead fun _ => noTextAhead_cons.mpr h

mutual

/-- One pass joins all text. -/
theorem Node.swept_eq_mergeText : (n : Node) → n.swept = n.mergeText
  | .element tag children => congrArg (Node.element tag) (sweep_eq none children)
  | .text _ | .comment _ | .instruction _ _ => rfl

/-- The text kept in mind is joined to the nodes to come. -/
theorem sweep_eq : (previous : Option String) → (nodes : List Node) →
    sweep previous nodes = (previous.toList.map .text).foldr prependNode (mergeTextAll nodes)
  | none, [] | some _, [] => rfl
  | previous, n :: rest => by
    have hn := n.swept_eq_mergeText
    have hrest (previous : Option String) := sweep_eq previous rest
    by_cases htext : n.isText = false
    · have hmerged := (isText_mergeText n).trans htext
      rw [sweep_cons_of_not_text htext, hn, hrest none, mergeTextAll,
        prependNode_of_not_text hmerged, foldr_prependNode_of_not_text hmerged]
      rfl
    · cases n with
      | text value =>
        cases previous with
        | none => exact hrest (some value)
        | some before =>
          exact (hrest (some (before ++ value))).trans (prependNode_text_text ..).symm
      | _ => exact absurd rfl htext

end

/-! ## What stays -/

mutual

/-- A node without any text in it. -/
def Node.withoutText : Node → Node
  | .element tag children => .element tag (withoutTextAll children)
  | n => n

/-- Nodes without any text, among them and everywhere below. -/
def withoutTextAll : List Node → List Node
  | [] => []
  | n :: rest => if n.isText then withoutTextAll rest else n.withoutText :: withoutTextAll rest

end

mutual

/-- The elements of a node in document order. -/
def Node.elements : Node → List Node
  | .element tag children => .element tag children :: elementsOfAll children
  | _ => []

/-- The elements of nodes in document order. -/
def elementsOfAll : List Node → List Node
  | [] => []
  | n :: rest => n.elements ++ elementsOfAll rest

end

theorem withoutTextAll_prependNode (n : Node) (rest : List Node) :
    withoutTextAll (prependNode n rest) = withoutTextAll (n :: rest) := by
  fun_cases prependNode n rest <;> rfl

theorem textOfAll_prependNode (n : Node) (rest : List Node) :
    textOfAll (prependNode n rest) = n.textOf ++ textOfAll rest := by
  fun_cases prependNode n rest with
  | case1 a b rest => exact String.append_assoc ..
  | case2 => rfl

theorem elementsOfAll_prependNode (n : Node) (rest : List Node) :
    elementsOfAll (prependNode n rest) = n.elements ++ elementsOfAll rest := by
  fun_cases prependNode n rest <;> rfl

mutual

theorem Node.withoutText_mergeText : (n : Node) → n.mergeText.withoutText = n.withoutText
  | .element tag children => congrArg (Node.element tag) (withoutTextAll_mergeTextAll children)
  | .text _ | .comment _ | .instruction _ _ => rfl

/-- Joining text changes nothing but text. -/
theorem withoutTextAll_mergeTextAll : (nodes : List Node) →
    withoutTextAll (mergeTextAll nodes) = withoutTextAll nodes
  | [] => rfl
  | n :: rest => by
    rw [mergeTextAll, withoutTextAll_prependNode, withoutTextAll, withoutTextAll, isText_mergeText,
      n.withoutText_mergeText, withoutTextAll_mergeTextAll rest]

end

mutual

theorem Node.textOf_mergeText : (n : Node) → n.mergeText.textOf = n.textOf
  | .element _ children => textOfAll_mergeTextAll children
  | .text _ | .comment _ | .instruction _ _ => rfl

theorem textOfAll_mergeTextAll : (nodes : List Node) →
    textOfAll (mergeTextAll nodes) = textOfAll nodes
  | [] => rfl
  | n :: rest => by
    rw [mergeTextAll, textOfAll_prependNode, n.textOf_mergeText, textOfAll_mergeTextAll rest,
      textOfAll]

end

mutual

theorem Node.elements_mergeText : (n : Node) →
    n.mergeText.elements = n.elements.map Node.mergeText
  | .element _ children => congrArg (List.cons _) (elementsOfAll_mergeTextAll children)
  | .text _ | .comment _ | .instruction _ _ => rfl

/-- The elements stay, each with its text joined. -/
theorem elementsOfAll_mergeTextAll : (nodes : List Node) →
    elementsOfAll (mergeTextAll nodes) = (elementsOfAll nodes).map Node.mergeText
  | [] => rfl
  | n :: rest => by
    rw [mergeTextAll, elementsOfAll_prependNode, n.elements_mergeText,
      elementsOfAll_mergeTextAll rest, elementsOfAll, List.map_append]

end

mutual

/-- Where no text stands next to text, nothing is joined. -/
theorem Node.Apart.mergeText_eq : {n : Node} → n.Apart → n.mergeText = n
  | .element tag _, h => congrArg (Node.element tag) (AllApart.mergeTextAll_eq h)
  | .text _, _ | .comment _, _ | .instruction _ _, _ => rfl

theorem AllApart.mergeTextAll_eq :
    {nodes : List Node} → AllApart nodes → mergeTextAll nodes = nodes
  | [], _ => rfl
  | n :: rest, h => by
    rw [mergeTextAll, h.1.mergeText_eq, AllApart.mergeTextAll_eq h.2.2,
      prependNode_of_noTextAhead h.2.1]

end

/-! ## Text taken apart -/

/-- One text inside the first node is two texts in the second one. -/
inductive Node.SplitsTo : Node → Node → Prop
  | text (tag : Tag) (before : List Node) (a b : String) (after : List Node) :
      SplitsTo (.element tag (before ++ .text (a ++ b) :: after))
        (.element tag (before ++ .text a :: .text b :: after))
  | inside (tag : Tag) (before : List Node) {n m : Node} (after : List Node) :
      SplitsTo n m → SplitsTo (.element tag (before ++ n :: after))
        (.element tag (before ++ m :: after))

/-- One text in an element of the first document is two texts in the second one. -/
inductive Document.SplitsTo : Document → Document → Prop
  | inside (before : List Node) {n m : Node} (after : List Node) :
      n.SplitsTo m → SplitsTo ⟨before ++ n :: after⟩ ⟨before ++ m :: after⟩

/-- Nodes that differ only in how their text is taken apart. -/
def Node.SameRuns : Node → Node → Prop := Relation.EqvGen Node.SplitsTo

/-- Documents that differ only in how their text is taken apart. -/
def Document.SameRuns : Document → Document → Prop := Relation.EqvGen Document.SplitsTo

theorem mergeTextAll_append_congr {nodes' : List Node} (before : List Node)
    (h : mergeTextAll nodes = mergeTextAll nodes') :
    mergeTextAll (before ++ nodes) = mergeTextAll (before ++ nodes') := by
  induction before with
  | nil => exact h
  | cons n before ih => exact congrArg (prependNode n.mergeText) ih

/-- Text that was taken apart is joined again. -/
theorem Node.SplitsTo.mergeText_eq (h : n.SplitsTo m) : n.mergeText = m.mergeText := by
  induction h with
  | text tag before a b after =>
    have hjoin := (prependNode_text_text a b (mergeTextAll after)).symm
    exact congrArg (Node.element tag) (mergeTextAll_append_congr before hjoin)
  | inside tag before after _ ih =>
    have hinside := congrArg (prependNode · (mergeTextAll after)) ih
    exact congrArg (Node.element tag) (mergeTextAll_append_congr before hinside)

theorem Document.SplitsTo.mergeText_eq {d d' : Document} (h : d.SplitsTo d') :
    d.mergeText = d'.mergeText := by
  obtain ⟨before, after, hnm⟩ := h
  simp only [Document.mergeText, List.map_append, List.map_cons, hnm.mergeText_eq]

theorem Document.SameRuns.mergeText_eq {d d' : Document} (h : d.SameRuns d') :
    d.mergeText = d'.mergeText := by
  induction h with
  | rel _ _ hstep => exact hstep.mergeText_eq
  | refl => rfl
  | symm _ _ _ ih => exact ih.symm
  | trans _ _ _ _ _ ih ih' => exact ih.trans ih'

theorem eqvGen_map {α β : Type} {r : α → α → Prop} {s : β → β → Prop} (f : α → β)
    (hf : ∀ a b, r a b → s (f a) (f b)) {a b : α} (h : Relation.EqvGen r a b) :
    Relation.EqvGen s (f a) (f b) := by
  induction h with
  | rel a b hab => exact .rel _ _ (hf a b hab)
  | refl a => exact .refl _
  | symm _ _ _ ih => exact .symm _ _ ih
  | trans _ _ _ _ _ ih ih' => exact .trans _ _ _ ih ih'

/-- Nodes inside of something can be changed one after the other. -/
theorem eqvGen_map_mergeText {α : Type} {r : α → α → Prop} (wrap : List Node → α)
    (hinside : ∀ before n m after, n.SplitsTo m →
      r (wrap (before ++ n :: after)) (wrap (before ++ m :: after)))
    (hnodes : ∀ n ∈ nodes, n.SameRuns n.mergeText) (before : List Node) :
    Relation.EqvGen r (wrap (before ++ nodes)) (wrap (before ++ nodes.map Node.mergeText)) := by
  induction nodes generalizing before with
  | nil => exact .refl _
  | cons n rest ih =>
    obtain ⟨hn, hrest⟩ := List.forall_mem_cons.mp hnodes
    have hfirst : Relation.EqvGen r (wrap (before ++ n :: rest))
        (wrap (before ++ n.mergeText :: rest)) :=
      eqvGen_map (fun k => wrap (before ++ k :: rest)) (hinside before · · rest) hn
    have hothers := ih hrest (before ++ [n.mergeText])
    rw [List.append_assoc, List.append_assoc] at hothers
    exact .trans _ _ _ hfirst hothers

theorem mergeTextAll_eq_foldr (nodes : List Node) :
    mergeTextAll nodes = (nodes.map Node.mergeText).foldr prependNode [] := by
  induction nodes with
  | nil => rfl
  | cons n rest ih => rw [mergeTextAll, ih, List.map_cons, List.foldr_cons]

theorem sameRuns_prependNode (tag : Tag) (before : List Node) (n : Node) (rest : List Node) :
    (Node.element tag (before ++ n :: rest)).SameRuns
      (.element tag (before ++ prependNode n rest)) := by
  fun_cases prependNode n rest with
  | case1 a b after => exact .symm _ _ (.rel _ _ (.text tag before a b after))
  | case2 => exact .refl _

theorem sameRuns_foldr_prependNode (tag : Tag) (before nodes : List Node) :
    (Node.element tag (before ++ nodes)).SameRuns
      (.element tag (before ++ nodes.foldr prependNode [])) := by
  induction nodes generalizing before with
  | nil => exact .refl _
  | cons n rest ih =>
    have hrest := ih (before ++ [n])
    rw [List.append_assoc, List.append_assoc] at hrest
    exact .trans _ _ _ hrest (sameRuns_prependNode tag before n _)

mutual

/-- Joining text is undone by taking text apart. -/
theorem Node.sameRuns_mergeText : (n : Node) → n.SameRuns n.mergeText
  | .element tag children => by
    have hinside := eqvGen_map_mergeText (Node.element tag)
      (fun before _ _ after => Node.SplitsTo.inside tag before after) (sameRuns_of_mem children) []
    have hjoin := sameRuns_foldr_prependNode tag [] (children.map Node.mergeText)
    rw [Node.mergeText, mergeTextAll_eq_foldr]
    exact .trans _ _ _ hinside hjoin
  | .text _ | .comment _ | .instruction _ _ => .refl _

theorem sameRuns_of_mem : (nodes : List Node) → ∀ n ∈ nodes, n.SameRuns n.mergeText
  | [], _, h => absurd h List.not_mem_nil
  | n :: rest, m, h => by
    have hn := n.sameRuns_mergeText
    have hrest := sameRuns_of_mem rest
    rcases List.mem_cons.mp h with rfl | h
    · exact hn
    · exact hrest m h

end

theorem Document.sameRuns_mergeText (d : Document) : d.SameRuns d.mergeText :=
  eqvGen_map_mergeText Document.mk (fun before _ _ after => SplitsTo.inside before after)
    (sameRuns_of_mem d.children) []

/-- Documents are the same with their text joined if and only if they differ in how it is taken
apart. -/
theorem Document.mergeText_eq_iff {d d' : Document} :
    d.mergeText = d'.mergeText ↔ d.SameRuns d' := by
  refine ⟨fun h => ?_, Document.SameRuns.mergeText_eq⟩
  have hd := d.sameRuns_mergeText
  rw [h] at hd
  exact .trans _ _ _ hd (.symm _ _ d'.sameRuns_mergeText)

/-! ## Loading -/

theorem Document.joined_iff {d d' : Document} :
    List.Forall₂ Node.Joined d.children d'.children ↔ d.mergeText = d' := by
  have hjoined : Node.Joined = fun n m => n.mergeText = m :=
    funext₂ fun _ _ => propext Node.joined_iff
  rw [hjoined, ← List.forall₂_map_left_iff, List.forall₂_eq_eq_eq, mergeText]
  exact ⟨congrArg mk, congrArg children⟩

theorem load_of_assemble {text : String} {parts : Document}
    (h : Document.assemble text = .ok parts) : Document.load text = .ok parts.mergeText := by
  rw [XPath.load_eq_ok_iff, Document.parse, h]
  rfl

theorem Document.mergeText_mergeText (d : Document) : d.mergeText.mergeText = d.mergeText := by
  rw [mergeText, mergeText, List.map_map]
  exact congrArg mk (List.map_congr_left fun n _ => n.apart_mergeText.mergeText_eq)

theorem Document.swept_eq_mergeText (d : Document) :
    d.children.map Node.swept = d.mergeText.children :=
  List.map_congr_left fun n _ => n.swept_eq_mergeText

theorem elementsOfAll_map_mergeText (nodes : List Node) :
    elementsOfAll (nodes.map Node.mergeText) = (elementsOfAll nodes).map Node.mergeText := by
  induction nodes with
  | nil => rfl
  | cons n rest ih =>
    rw [List.map_cons, elementsOfAll, elementsOfAll, n.elements_mergeText, ih, List.map_append]

/-- A document that is delivered in parts is loaded with one text for each run of them, at every
depth, so that no text stands next to text. What is not text stays, and so does all the text of each
element. One pass from left to right does this, and another pass changes nothing. Two texts are
loaded as one document if and only if their parts differ only in how text is taken apart. -/
theorem load_joins_runs {text : String} {parts : Document}
    (h : Document.assemble text = .ok parts) :
    ∃ d, Document.load text = .ok d ∧
      (∀ d' : Document, List.Forall₂ Node.Joined parts.children d'.children ↔ d = d') ∧
      d.children = parts.children.map Node.swept ∧
      AllApart d.children ∧
      d.children.map Node.withoutText = parts.children.map Node.withoutText ∧
      (elementsOfAll d.children).map Node.textOf =
        (elementsOfAll parts.children).map Node.textOf ∧
      d.mergeText = d ∧
      ∀ text' parts', Document.assemble text' = .ok parts' →
        (Document.load text' = .ok d ↔ parts.SameRuns parts') := by
  have hload := load_of_assemble h
  have hproper := proper_of_parse (XPath.load_eq_ok_iff.mp hload)
  refine ⟨parts.mergeText, hload, fun _ => Document.joined_iff, parts.swept_eq_mergeText.symm,
    hproper.apart, ?_, ?_, parts.mergeText_mergeText, fun text' parts' h' => ?_⟩
  · rw [Document.mergeText, List.map_map]
    exact List.map_congr_left fun n _ => n.withoutText_mergeText
  · rw [Document.mergeText, elementsOfAll_map_mergeText, List.map_map]
    exact List.map_congr_left fun n _ => n.textOf_mergeText
  · rw [load_of_assemble h', Except.ok.injEq, ← Document.mergeText_eq_iff, eq_comm]

/-- Text before an element and behind it, delivered in different parts by two texts. -/
theorem load_joins_runs_sections : ∃ parts parts',
    Document.assemble "<a>1<![CDATA[<]]><b/>2</a>" = .ok parts ∧
    Document.assemble "<a><![CDATA[1<]]><b/>2</a>" = .ok parts' ∧
    ∃ d, Document.load "<a>1<![CDATA[<]]><b/>2</a>" = .ok d ∧
      Document.load "<a><![CDATA[1<]]><b/>2</a>" = .ok d ∧ AllApart d.children ∧
      (elementsOfAll d.children).map Node.textOf = ["1<2", ""] := by
  let a (children : List Node) : Document :=
    ⟨[.element ⟨⟨none, none, "a"⟩, [("xml", xmlUri)], []⟩ children]⟩
  let b : Node := .element ⟨⟨none, none, "b"⟩, [], []⟩ []
  have hparts : Document.assemble "<a>1<![CDATA[<]]><b/>2</a>" =
      .ok (a [.text "1", .text "<", b, .text "2"]) := by decide +kernel
  have hparts' : Document.assemble "<a><![CDATA[1<]]><b/>2</a>" =
      .ok (a [.text "1<", b, .text "2"]) := by decide +kernel
  obtain ⟨d, hload, -, -, hapart, -, htext, -, hsame⟩ := load_joins_runs hparts
  have hload' := (hsame _ _ hparts').mpr (Document.mergeText_eq_iff.mp rfl)
  exact ⟨_, _, hparts, hparts', d, hload, hload', hapart, htext.trans (by decide +kernel)⟩

end XPathBench.Xml

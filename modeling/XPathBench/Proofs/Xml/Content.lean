import XPathBench.Xml.Markup

/-!
# What nodes hold

Two nodes hold the same if they differ only in empty text and in the prefixes that elements bind
without using them. A reader delivers text in parts, which are then joined.

* `Node.content`: a node without empty text, bindings left out
* `Node.settled`: the same for a node whose text comes in parts
* `contentOfAll_mergeTextAll`: joining text and then looking at the content is settling
* `Node.Apart`: no text stands next to text
-/

namespace XPathBench.Xml

/-- The node is text without characters. -/
def Node.isEmptyText : Node → Bool
  | .text value => value == ""
  | _ => false

/-- The node is text. -/
def Node.isText : Node → Bool
  | .text _ => true
  | _ => false

mutual

/-- A node without empty text inside and without the record of what its elements bind. -/
def Node.content : Node → Node
  | .element tag children => .element { tag with bindings := [] } (contentOfAll children)
  | n => n

/-- Nodes without empty text, among them and everywhere below. -/
def contentOfAll : List Node → List Node
  | [] => []
  | n :: rest => if n.isEmptyText then contentOfAll rest else n.content :: contentOfAll rest

end

/-- A node in front of others, where text joins text and empty text leaves nothing. -/
def joinNode (n : Node) (rest : List Node) : List Node :=
  if n.isEmptyText then rest else prependNode n rest

mutual

/-- The content of a node whose text comes in parts. -/
def Node.settled : Node → Node
  | .element tag children => .element { tag with bindings := [] } (settleAll children)
  | n => n

/-- The content of nodes whose text comes in parts. -/
def settleAll : List Node → List Node
  | [] => []
  | n :: rest => joinNode n.settled (settleAll rest)

end

/-! ## No text next to text -/

/-- Text may stand before the nodes. -/
def NoTextAhead (nodes : List Node) : Prop := ∀ n ∈ nodes.head?, n.isText = false

mutual

/-- Inside the node no text stands next to text. -/
def Node.Apart : Node → Prop
  | .element _ children => AllApart children
  | _ => True

/-- No text stands next to text, among the nodes and everywhere below. -/
def AllApart : List Node → Prop
  | [] => True
  | n :: rest => n.Apart ∧ (n.isText = true → NoTextAhead rest) ∧ AllApart rest

end

theorem apart_of_mem {n : Node} : {nodes : List Node} → AllApart nodes → n ∈ nodes → n.Apart
  | _ :: _, h, hn => by
    rcases List.mem_cons.mp hn with rfl | hn
    · exact h.1
    · exact apart_of_mem h.2.2 hn

@[simp] theorem noTextAhead_nil : NoTextAhead [] := by simp [NoTextAhead]

@[simp] theorem noTextAhead_cons {n : Node} {rest : List Node} :
    NoTextAhead (n :: rest) ↔ n.isText = false := by simp [NoTextAhead]

theorem isText_content (n : Node) : n.content.isText = n.isText := by
  cases n <;> rfl

theorem noTextAhead_contentOfAll {nodes : List Node} (h : NoTextAhead nodes) :
    NoTextAhead (contentOfAll nodes) := by
  cases nodes with
  | nil => exact noTextAhead_nil
  | cons n rest =>
    rw [noTextAhead_cons] at h
    have hempty : n.isEmptyText = false := by
      cases n with
      | text => cases h
      | _ => rfl
    rw [contentOfAll, hempty]
    exact noTextAhead_cons.mpr ((isText_content n).trans h)

/-- What is joined to nodes without text ahead stands alone. -/
theorem prependNode_of_noTextAhead {n : Node} {rest : List Node}
    (h : n.isText = true → NoTextAhead rest) : prependNode n rest = n :: rest := by
  cases n with
  | text a =>
    cases rest with
    | nil => rfl
    | cons m rest =>
      cases m with
      | text b => exact absurd (noTextAhead_cons.mp (h rfl)) (by simp [Node.isText])
      | _ => rfl
  | _ => rfl

theorem prependNode_of_not_text {n : Node} {rest : List Node} (h : n.isText = false) :
    prependNode n rest = n :: rest :=
  prependNode_of_noTextAhead fun ht => absurd ht (by rw [h]; decide)

theorem prependNode_text_text (a b : String) (rest : List Node) :
    prependNode (.text a) (prependNode (.text b) rest) = prependNode (.text (a ++ b)) rest := by
  cases rest with
  | nil => rfl
  | cons n rest => cases n <;> simp [prependNode, String.append_assoc]

theorem joinNode_of_not_text {n : Node} {rest : List Node} (h : n.isText = false) :
    joinNode n rest = n :: rest := by
  have hempty : n.isEmptyText = false := by
    cases n with
    | text => cases h
    | _ => rfl
  rw [joinNode, hempty, if_neg Bool.false_ne_true, prependNode_of_not_text h]

theorem joinNode_text_text {a b : String} {rest : List Node} :
    joinNode (.text a) (joinNode (.text b) rest) = joinNode (.text (a ++ b)) rest := by
  by_cases ha : a = "" <;> by_cases hb : b = ""
  · subst ha hb
    simp [joinNode, Node.isEmptyText]
  · subst ha
    simp [joinNode, Node.isEmptyText, hb]
  · subst hb
    simp [joinNode, Node.isEmptyText, ha]
  · have hab : a ++ b ≠ "" := by
      intro h
      rw [← String.toList_inj] at h ha
      simp only [String.toList_append] at h
      exact ha (List.append_eq_nil_iff.mp h).1
    simp only [joinNode, Node.isEmptyText, beq_iff_eq, ha, hb, hab, if_false]
    exact prependNode_text_text a b rest

/-! ## Joining text -/

theorem isText_mergeText (n : Node) : n.mergeText.isText = n.isText := by
  cases n <;> rfl

theorem allApart_prependNode {n : Node} {rest : List Node} (hn : n.Apart) (hrest : AllApart rest) :
    AllApart (prependNode n rest) := by
  cases n with
  | text a =>
    cases rest with
    | nil => exact ⟨trivial, fun _ => noTextAhead_nil, trivial⟩
    | cons m rest =>
      cases m with
      | text b => exact ⟨trivial, fun _ => hrest.2.1 rfl, hrest.2.2⟩
      | _ => exact ⟨trivial, fun _ => noTextAhead_cons.mpr rfl, hrest⟩
  | _ => exact ⟨hn, fun h => absurd h (by simp [Node.isText]), hrest⟩

mutual

theorem Node.apart_mergeText : (n : Node) → n.mergeText.Apart
  | .element _ children => allApart_mergeTextAll children
  | .text _ | .comment _ | .instruction _ _ => trivial

/-- Where text is joined, no text stands next to text. -/
theorem allApart_mergeTextAll : (nodes : List Node) → AllApart (mergeTextAll nodes)
  | [] => trivial
  | n :: rest => allApart_prependNode n.apart_mergeText (allApart_mergeTextAll rest)

end

theorem contentOfAll_cons {n : Node} {rest : List Node} (h : n.isText = true → NoTextAhead rest) :
    contentOfAll (n :: rest) = joinNode n.content (contentOfAll rest) := by
  have hempty : n.content.isEmptyText = n.isEmptyText := by cases n <;> rfl
  rw [contentOfAll, joinNode, hempty]
  split
  · rfl
  · rw [prependNode_of_noTextAhead]
    rw [isText_content]
    exact fun ht => noTextAhead_contentOfAll (h ht)

theorem contentOfAll_prependNode {n : Node} {rest : List Node} (h : AllApart rest) :
    contentOfAll (prependNode n rest) = joinNode n.content (contentOfAll rest) := by
  by_cases hn : n.isText = true → NoTextAhead rest
  · rw [prependNode_of_noTextAhead hn, contentOfAll_cons hn]
  · cases n with
    | text a =>
      cases rest with
      | nil => exact absurd (fun _ => noTextAhead_nil) hn
      | cons m rest =>
        cases m with
        | text b =>
          have hrest := h.2.1 rfl
          rw [prependNode, contentOfAll_cons fun _ => hrest, contentOfAll_cons fun _ => hrest]
          exact joinNode_text_text.symm
        | _ => exact absurd (fun _ => noTextAhead_cons.mpr rfl) hn
    | _ => exact absurd (fun ht => by cases ht) hn

mutual

theorem Node.content_mergeText : (n : Node) → n.mergeText.content = n.settled
  | .element _ children => by
    rw [Node.mergeText, Node.content, Node.settled, contentOfAll_mergeTextAll children]
  | .text _ | .comment _ | .instruction _ _ => rfl

/-- The content of joined text is the settled form of its parts. -/
theorem contentOfAll_mergeTextAll :
    (nodes : List Node) → contentOfAll (mergeTextAll nodes) = settleAll nodes
  | [] => rfl
  | n :: rest => by
    rw [mergeTextAll, contentOfAll_prependNode (allApart_mergeTextAll rest), settleAll,
      Node.content_mergeText n, contentOfAll_mergeTextAll rest]

end

/-- Parts of a text settle to the text. -/
theorem settleAll_texts {parts : List String} {rest : List Node} :
    settleAll (parts.map .text ++ rest) =
      joinNode (.text (String.join parts)) (settleAll rest) := by
  induction parts with
  | nil => rfl
  | cons a parts ih =>
    rw [List.map_cons, List.cons_append, String.join_cons, ← joinNode_text_text, ← ih]
    rfl

end XPathBench.Xml

import XPathBench.Xml.Node

/-!
# Equality of nodes

Nodes are compared part by part, so it can be decided which document a text denotes.

* `Node.same`, `sameAll`: the comparison
* `Node.same_iff`, `sameAll_iff`: it finds equality
-/

namespace XPathBench.Xml

mutual

/-- The nodes are made of the same parts. -/
def Node.same : Node → Node → Bool
  | .element tag children, .element tag' children' => tag == tag' && sameAll children children'
  | .text value, .text value' => value == value'
  | .comment value, .comment value' => value == value'
  | .instruction target value, .instruction target' value' => target == target' && value == value'
  | _, _ => false

/-- The nodes are the same, one after the other. -/
def sameAll : List Node → List Node → Bool
  | [], [] => true
  | n :: rest, n' :: rest' => n.same n' && sameAll rest rest'
  | _, _ => false

end

mutual

theorem Node.same_iff : (n n' : Node) → (n.same n' = true ↔ n = n')
  | .element tag children, n' => by
    cases n' with
    | element tag' children' => simp [Node.same, sameAll_iff children children']
    | _ => simp [Node.same]
  | .text _, n' | .comment _, n' | .instruction _ _, n' => by cases n' <;> simp [Node.same]

theorem sameAll_iff : (nodes nodes' : List Node) → (sameAll nodes nodes' = true ↔ nodes = nodes')
  | [], nodes' => by cases nodes' <;> simp [sameAll]
  | n :: rest, nodes' => by
    cases nodes' with
    | nil => simp [sameAll]
    | cons n' rest' => simp [sameAll, n.same_iff n', sameAll_iff rest rest']

end

instance : DecidableEq Node := fun n n' => decidable_of_iff _ (n.same_iff n')

instance : DecidableEq Document := fun ⟨nodes⟩ ⟨nodes'⟩ =>
  decidable_of_iff (nodes = nodes') (by simp)

end XPathBench.Xml

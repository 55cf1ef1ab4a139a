import Mathlib.Data.List.Lex
import XPathBench.Proofs.XPath.Fragments

/-!
# Document order

The places of a document are listed in document order, each once.

* `Place.Within`: a place is another one or stands below it
* `Place.Before`: document order
* `Place.Before.lex`: it is the lexical order of the ways down from the root
* `Place.Before.not_same`, `Place.Before.asymm`: it is strict
* `Place.pairwise_subtree`: the places of a document are listed in order
-/

namespace XPathBench.XPath

open Xml (Document Node Attribute)

namespace Place

variable {p q r parent owner : Place} {index i j : Nat} {n n' : Node} {a : Attribute}

/-! ## Addresses -/

/-- What tells a place from others with the same parent. -/
inductive Coordinate where
  | child (index : Nat)
  | attr (index : Nat)
  | binding (name : String)

/-- The order of children and attributes of one place: the attributes come first, the last of them
before the others. -/
def Coordinate.Precedes : Coordinate → Coordinate → Prop
  | attr i, attr j => j < i
  | attr _, child _ => True
  | child i, child j => i < j
  | _, _ => False

instance : Std.Asymm Coordinate.Precedes where
  asymm c d hcd hdc := by
    cases c <;> cases d <;> simp only [Coordinate.Precedes] at hcd hdc
    · omega
    · omega

/-- The coordinates of a place and of those above it, up to the root. -/
def address : Place → List Coordinate
  | root _ => []
  | node parent index _ => .child index :: parent.address
  | attr owner index _ => .attr index :: owner.address
  | binding owner name _ => .binding name :: owner.address

/-- Two places are the same if they are found in the same way. -/
theorem same_iff_address : p.same q = true ↔ p.address = q.address := by
  induction p generalizing q with
  | root => cases q <;> simp [same, address]
  | node p i n ih => cases q <;> simp [same, address, ih]
  | attr p i a ih => cases q <;> simp [same, address, ih]
  | binding p name uri ih => cases q <;> simp [same, address, ih]

theorem same_self (p : Place) : p.same p = true := same_iff_address.mpr rfl

theorem same_comm (p q : Place) : p.same q = q.same p :=
  Bool.eq_iff_iff.mpr (same_iff_address.trans (eq_comm.trans same_iff_address.symm))

theorem exists_suffix_of_mem_ancestors (h : p ∈ q.ancestors) :
    ∃ c, c :: p.address <:+ q.address := by
  induction q with
  | root => cases h
  | node q i n ih | attr q i a ih | binding q name uri ih =>
    rcases List.mem_cons.mp h with rfl | h
    · exact ⟨_, List.suffix_rfl⟩
    · obtain ⟨c, hc⟩ := ih h
      exact ⟨c, hc.trans (List.suffix_cons _ _)⟩

theorem ancestors_trans (hp : p ∈ q.ancestors) (hq : q ∈ r.ancestors) : p ∈ r.ancestors := by
  induction r with
  | root => cases hq
  | node r i n ih | attr r i a ih | binding r name uri ih =>
    rcases List.mem_cons.mp hq with rfl | hq
    · exact List.mem_cons_of_mem _ hp
    · exact List.mem_cons_of_mem _ (ih hq)

/-- A place is another one, or stands below it. -/
def Within (p q : Place) : Prop := q = p ∨ p ∈ q.ancestors

theorem Within.suffix (h : p.Within q) : p.address <:+ q.address := by
  rcases h with rfl | h
  · exact List.suffix_rfl
  · obtain ⟨c, hc⟩ := exists_suffix_of_mem_ancestors h
    exact (List.suffix_cons _ _).trans hc

theorem Within.mem_ancestors (h : p ∈ q.ancestors) (hq : q.Within r) : p ∈ r.ancestors := by
  rcases hq with rfl | hq
  · exact h
  · exact ancestors_trans h hq

/-! ## Document order -/

/-- Document order: a place comes before those below it, the attributes of an element before its
children and what is below these, and of two siblings with all that is below them the earlier one
before the later one. Of the attributes of an element the later one comes first. -/
inductive Before : Place → Place → Prop where
  | above {p q : Place} : p ∈ q.ancestors → Before p q
  | attributes {owner : Place} {i j : Nat} {a b : Attribute} : j < i →
      Before (attr owner i a) (attr owner j b)
  | content {owner q : Place} {i j : Nat} {a : Attribute} {n : Node} :
      (node owner j n).Within q → Before (attr owner i a) q
  | siblings {parent p q : Place} {i j : Nat} {n n' : Node} : i < j →
      (node parent i n).Within p → (node parent j n').Within q → Before p q

/-- Two ways down from the root that part are ordered like the coordinates where they do. -/
theorem lex_of_suffix {c d : Coordinate} {cs xs ys : List Coordinate} (h : c.Precedes d)
    (hx : c :: cs <:+ xs) (hy : d :: cs <:+ ys) :
    List.Lex Coordinate.Precedes xs.reverse ys.reverse := by
  obtain ⟨xs, rfl⟩ := hx
  obtain ⟨ys, rfl⟩ := hy
  rw [List.reverse_append, List.reverse_append, List.reverse_cons, List.reverse_cons,
    List.append_assoc, List.append_assoc]
  exact List.Lex.append_left _ (.rel h) _

/-- A way down from the root that goes on comes after the one that does not. -/
theorem lex_of_longer {c : Coordinate} {cs ys : List Coordinate} (hy : c :: cs <:+ ys) :
    List.Lex Coordinate.Precedes cs.reverse ys.reverse := by
  obtain ⟨ys, rfl⟩ := hy
  rw [List.reverse_append, List.reverse_cons, List.append_assoc]
  have hlex : List.Lex Coordinate.Precedes (cs.reverse ++ []) (cs.reverse ++ ([c] ++ ys.reverse)) :=
    List.Lex.append_left _ .nil _
  rwa [List.append_nil] at hlex

/-- Document order is the lexical order of the ways down from the root. -/
theorem Before.lex (h : p.Before q) :
    List.Lex Coordinate.Precedes p.address.reverse q.address.reverse := by
  cases h with
  | above h =>
    obtain ⟨c, hc⟩ := exists_suffix_of_mem_ancestors h
    exact lex_of_longer hc
  | @attributes _ i j _ _ hlt =>
    exact lex_of_suffix (c := .attr i) (d := .attr j) hlt List.suffix_rfl List.suffix_rfl
  | @content _ _ i j _ _ h =>
    exact lex_of_suffix (c := .attr i) (d := .child j) trivial List.suffix_rfl h.suffix
  | @siblings _ _ _ i j _ _ hlt hp hq =>
    exact lex_of_suffix (c := .child i) (d := .child j) hlt hp.suffix hq.suffix

/-- Of two places only one can be before the other. -/
theorem Before.asymm (h : p.Before q) : ¬ q.Before p := by
  intro h'
  exact Std.Asymm.asymm _ _ h.lex h'.lex

/-- Places in document order are different nodes. -/
theorem Before.not_same (h : p.Before q) : p.same q = false := by
  rw [Bool.eq_false_iff, Ne, same_iff_address]
  intro heq
  have hlex := h.lex
  rw [heq] at hlex
  exact Std.Asymm.asymm _ _ hlex hlex

/-! ## The places of a document -/

mutual

theorem within_of_mem_subtreeOf : {parent : Place} → {index : Nat} → {n : Node} →
    q ∈ subtreeOf parent index n → (node parent index n).Within q
  | parent, index, .element tag children, h => by
    rw [subtreeOf] at h
    rcases List.mem_cons.mp h with rfl | h
    · exact .inl rfl
    rcases List.mem_append.mp h with h | h
    · obtain ⟨i, a, -, rfl⟩ := exists_attr_of_attributesFrom (List.mem_reverse.mp h)
      exact .inr List.mem_cons_self
    · obtain ⟨j, m, -, hwithin⟩ := within_of_mem_subtreesOf h
      exact .inr (hwithin.mem_ancestors List.mem_cons_self)
  | _, _, .text _, h | _, _, .comment _, h | _, _, .instruction _ _, h =>
    .inl (List.mem_singleton.mp h)

theorem within_of_mem_subtreesOf : {parent : Place} → {index : Nat} → {nodes : List Node} →
    q ∈ subtreesOf parent index nodes → ∃ j n, index ≤ j ∧ (node parent j n).Within q
  | _, index, n :: rest, h => by
    rcases List.mem_append.mp h with h | h
    · exact ⟨index, n, Nat.le_refl index, within_of_mem_subtreeOf h⟩
    · obtain ⟨j, m, hle, hwithin⟩ := within_of_mem_subtreesOf h
      exact ⟨j, m, by omega, hwithin⟩

end

theorem pairwise_attributesFrom {as : List Attribute} :
    (attributesFrom owner index as).Pairwise fun p q => q.Before p := by
  induction as generalizing index with
  | nil => exact .nil
  | cons a as ih =>
    refine List.pairwise_cons.mpr ⟨fun q hq => ?_, ih⟩
    obtain ⟨j, b, hle, rfl⟩ := exists_attr_of_attributesFrom hq
    exact .attributes hle

mutual

theorem pairwise_subtreeOf : (parent : Place) → (index : Nat) → (n : Node) →
    (subtreeOf parent index n).Pairwise Before
  | parent, index, .element tag children => by
    rw [subtreeOf]
    have hattributes {q : Place}
        (hq : q ∈ (node parent index (.element tag children)).attributes.reverse) :
        ∃ i a, q = attr (node parent index (.element tag children)) i a := by
      obtain ⟨i, a, -, h⟩ := exists_attr_of_attributesFrom (List.mem_reverse.mp hq)
      exact ⟨i, a, h⟩
    refine List.pairwise_cons.mpr ⟨fun q hq => ?_, List.pairwise_append.mpr ⟨?_, ?_, ?_⟩⟩
    · rcases List.mem_append.mp hq with hq | hq
      · obtain ⟨i, a, rfl⟩ := hattributes hq
        exact .above List.mem_cons_self
      · obtain ⟨j, m, -, hwithin⟩ := within_of_mem_subtreesOf hq
        exact .above (hwithin.mem_ancestors List.mem_cons_self)
    · exact List.pairwise_reverse.mpr pairwise_attributesFrom
    · exact pairwise_subtreesOf _ 0 children
    · intro p hp q hq
      obtain ⟨i, a, rfl⟩ := hattributes hp
      obtain ⟨j, m, -, hwithin⟩ := within_of_mem_subtreesOf hq
      exact .content hwithin
  | _, _, .text _ | _, _, .comment _ | _, _, .instruction _ _ => List.pairwise_singleton _ _

theorem pairwise_subtreesOf : (parent : Place) → (index : Nat) → (nodes : List Node) →
    (subtreesOf parent index nodes).Pairwise Before
  | _, _, [] => .nil
  | parent, index, n :: rest => by
    refine List.pairwise_append.mpr ⟨pairwise_subtreeOf parent index n,
      pairwise_subtreesOf parent (index + 1) rest, fun p hp q hq => ?_⟩
    obtain ⟨j, m, hle, hwithin⟩ := within_of_mem_subtreesOf hq
    exact .siblings hle (within_of_mem_subtreeOf hp) hwithin

end

/-- The root of a document and all that is below it are listed in document order. -/
theorem pairwise_subtree (document : Document) : (root document).subtree.Pairwise Before := by
  refine List.pairwise_cons.mpr ⟨fun q hq => ?_, pairwise_subtreesOf _ 0 _⟩
  obtain ⟨j, m, -, hwithin⟩ := within_of_mem_subtreesOf hq
  exact .above (hwithin.mem_ancestors List.mem_cons_self)

end Place

end XPathBench.XPath

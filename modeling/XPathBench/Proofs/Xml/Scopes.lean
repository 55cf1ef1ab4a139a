import XPathBench.Proofs.Xml.Proper

/-!
# Declarations made while writing

What is in scope after the needs of a tag are met, and which declarations that takes.

* `Scope.lookup_extend`: the scope inside a tag
* `Scope.mem_extend_iff`: the declarations in a tag
* `Node.run`: writing with one scope that grows at start tags and is cut back at end tags
-/

namespace XPathBench.Xml

section Consistent

variable {α : Type} {l : List (α × String)} {a : α} {u : String}

/-- Each key has one value. -/
def Consistent (l : List (α × String)) : Prop := ∀ a u v, (a, u) ∈ l → (a, v) ∈ l → u = v

theorem Consistent.tail {b : α × String} (h : Consistent (b :: l)) : Consistent l :=
  fun a u v hu hv => h a u v (List.mem_cons_of_mem _ hu) (List.mem_cons_of_mem _ hv)

theorem Consistent.lookup_eq_some_iff [BEq α] [LawfulBEq α] (h : Consistent l) :
    l.lookup a = some u ↔ (a, u) ∈ l := by
  refine ⟨mem_of_lookup, fun hmem => ?_⟩
  cases hl : l.lookup a with
  | none => exact absurd (List.lookup_eq_none_iff.mp hl (a, u) hmem) (by simp)
  | some v => rw [h a u v hmem (mem_of_lookup hl)]

end Consistent

/-- What a declaration says: the empty namespace is none. -/
def declared (u : String) : Option String := if u = "" then none else some u

theorem eq_of_declared {u v : String} (h : declared u = some v) : u = v := by
  rw [declared] at h
  split at h
  · cases h
  · exact Option.some.inj h

theorem declared_of_ne {u : String} (h : u ≠ "") : declared u = some u := if_neg h

namespace Scope

variable {scope : Scope} {need d : Option String × String} {p : Option String} {u : String}
  {needs : List (Option String × String)}

theorem lookup_cons :
    Scope.lookup (d :: scope) p = if p = d.1 then declared d.2 else scope.lookup p := by
  rw [Scope.lookup, List.lookup_cons]
  by_cases h : p = d.1
  · rw [beq_iff_eq.mpr h, if_pos h]
    by_cases hu : d.2 = "" <;> simp [declared, hu]
  · rw [beq_eq_false_iff_ne.mpr h, if_neg h]
    rfl

theorem provides_iff : scope.provides need = true ↔ scope.lookup need.1 = declared need.2 := by
  rw [provides, declared]
  split <;> simp

/-- Inside a tag a prefix stands for what the tag needs of it, or else for what it stood for. -/
theorem lookup_extend (h : Consistent needs) :
    (scope.extend needs).1.lookup p = (needs.lookup p).elim (scope.lookup p) declared := by
  induction needs generalizing scope with
  | nil => rfl
  | cons need rest ih =>
    have hrest (hp : p = need.1) : rest.lookup p = none ∨ rest.lookup p = some need.2 := by
      cases hl : rest.lookup p with
      | none => exact .inl rfl
      | some v =>
        rw [h need.1 v need.2 (List.mem_cons_of_mem _ (hp ▸ mem_of_lookup hl)) (by simp)]
        exact .inr rfl
    rw [extend, List.lookup_cons]
    split
    · next hprovides =>
      rw [ih h.tail]
      by_cases hp : p = need.1
      · rw [beq_iff_eq.mpr hp]
        rcases hrest hp with hl | hl
        · rw [hl, hp]
          exact provides_iff.mp hprovides
        · rw [hl]
      · rw [beq_eq_false_iff_ne.mpr hp]
    · show (extend (need :: scope) rest).1.lookup p = _
      rw [ih h.tail, lookup_cons]
      by_cases hp : p = need.1
      · rw [beq_iff_eq.mpr hp, if_pos hp]
        rcases hrest hp with hl | hl <;> rw [hl] <;> rfl
      · rw [beq_eq_false_iff_ne.mpr hp, if_neg hp]

theorem extend_fst : (scope.extend needs).1 = (scope.extend needs).2.reverse ++ scope := by
  induction needs generalizing scope with
  | nil => rfl
  | cons need rest ih =>
    rw [extend]
    split
    · exact ih
    · show (extend (need :: scope) rest).1 =
        (need :: (extend (need :: scope) rest).2).reverse ++ scope
      rw [ih, List.reverse_cons, List.append_assoc, List.singleton_append]

/-- A tag declares what it needs and is not so already. -/
theorem mem_extend_iff (h : Consistent needs) :
    d ∈ (scope.extend needs).2 ↔ d ∈ needs ∧ scope.lookup d.1 ≠ declared d.2 := by
  induction needs generalizing scope with
  | nil => simp [extend]
  | cons need rest ih =>
    rw [extend]
    split
    · next hprovides =>
      rw [ih h.tail, List.mem_cons]
      refine and_congr_left fun hd => ?_
      rw [or_iff_right]
      rintro rfl
      exact hd (provides_iff.mp hprovides)
    · next hprovides =>
      rw [provides_iff] at hprovides
      show d ∈ need :: (extend (need :: scope) rest).2 ↔ _
      rw [List.mem_cons, List.mem_cons, ih h.tail, lookup_cons]
      by_cases hp : d.1 = need.1
      · rw [if_pos hp]
        constructor
        · rintro (rfl | ⟨hd, hne⟩)
          · exact ⟨.inl rfl, hprovides⟩
          · exact absurd (congrArg declared (h need.1 _ _ (by simp) (by simp [← hp, hd]))) hne
        · rintro ⟨rfl | hd, _⟩
          · exact .inl rfl
          · refine .inl (Prod.ext hp (h need.1 _ _ (by simp [← hp, hd]) (by simp)))
      · rw [if_neg hp]
        have hne : d ≠ need := fun heq => hp (by rw [heq])
        simp only [hne, false_or]

/-- A tag declares only what it needs. -/
theorem mem_of_mem_extend (h : d ∈ (scope.extend needs).2) : d ∈ needs := by
  induction needs generalizing scope with
  | nil => cases h
  | cons need rest ih =>
    rw [extend] at h
    split at h
    · exact List.mem_cons_of_mem _ (ih h)
    · rcases List.mem_cons.mp h with rfl | h
      · exact List.mem_cons_self
      · exact List.mem_cons_of_mem _ (ih h)

theorem consistent_extend (h : Consistent needs) : Consistent (scope.extend needs).2 :=
  fun p u v hu hv => h p u v (mem_of_mem_extend hu) (mem_of_mem_extend hv)

/-- What a tag declares a prefix to be is what it needs of it, unless that is so already. -/
theorem lookup_extend_snd (h : Consistent needs) : (scope.extend needs).2.lookup p =
    (needs.lookup p).filter fun u => scope.lookup p ≠ declared u := by
  refine Option.ext fun u => ?_
  rw [(consistent_extend h).lookup_eq_some_iff, mem_extend_iff h, Option.filter_eq_some_iff,
    h.lookup_eq_some_iff, decide_eq_true_eq]

/-- No tag declares a prefix twice. -/
theorem nodup_extend (h : Consistent needs) : ((scope.extend needs).2.map Prod.fst).Nodup := by
  induction needs generalizing scope with
  | nil => exact .nil
  | cons need rest ih =>
    rw [extend]
    split
    · exact ih h.tail
    · show ((need :: (extend (need :: scope) rest).2).map Prod.fst).Nodup
      rw [List.map_cons, List.nodup_cons]
      refine ⟨fun hmem => ?_, ih h.tail⟩
      obtain ⟨d, hd, hp⟩ := List.mem_map.mp hmem
      obtain ⟨hd, hne⟩ := (mem_extend_iff h.tail).mp hd
      rw [lookup_cons, if_pos hp] at hne
      exact hne (congrArg declared (h need.1 _ _ (by simp) (by simp [← hp, hd])))

/-- The scope cut back to the declarations that were there before. -/
def cutBack (scope : Scope) (size : Nat) : Scope := scope.drop (scope.length - size)

/-- Cutting back takes away what a tag declared. -/
theorem cutBack_extend : (scope.extend needs).1.cutBack scope.length = scope := by
  rw [cutBack, extend_fst, List.length_append, Nat.add_sub_cancel, List.drop_left]

end Scope

/-! ## Writing with one scope -/

section Pieces

variable {tag : Tag} {child : Node} {rest : List Node} {scope : Scope}

theorem pieces_leaf : (Node.element tag []).pieces scope =
    [.single ("<" ++ tag.inside (scope.extend tag.needs).2 ++ "/>")] := rfl

theorem pieces_element : (Node.element tag (child :: rest)).pieces scope =
    .opening ("<" ++ tag.inside (scope.extend tag.needs).2 ++ ">") ::
      (piecesOfAll (scope.extend tag.needs).1 (child :: rest) ++
        [.closing ("</" ++ tag.name.qualified ++ ">")]) := rfl

end Pieces

mutual

/-- A node as pieces, and the scope behind it: a start tag adds its declarations to the scope, and
the end of the element cuts the scope back to what it was before. -/
def Node.run (scope : Scope) : Node → List Piece × Scope
  | .element tag [] =>
    let inner := scope.extend tag.needs
    ([.single ("<" ++ tag.inside inner.2 ++ "/>")], inner.1.cutBack scope.length)
  | .element tag (child :: rest) =>
    let inner := scope.extend tag.needs
    let first := child.run inner.1
    let others := runAll first.2 rest
    (.opening ("<" ++ tag.inside inner.2 ++ ">") ::
      (first.1 ++ others.1 ++ [.closing ("</" ++ tag.name.qualified ++ ">")]),
      others.2.cutBack scope.length)
  | n => (n.pieces scope, scope)

/-- Nodes as pieces, one after the other, and the scope behind them. -/
def runAll (scope : Scope) : List Node → List Piece × Scope
  | [] => ([], scope)
  | n :: rest =>
    let first := n.run scope
    let others := runAll first.2 rest
    (first.1 ++ others.1, others.2)

end

mutual

/-- Behind a node the scope is what it was before it, and the node is written as if each element had
a scope of its own. -/
theorem Node.run_eq (scope : Scope) : (n : Node) → n.run scope = (n.pieces scope, scope)
  | .element tag [] => Prod.ext rfl Scope.cutBack_extend
  | .element tag (child :: rest) => by
    rw [Node.run, pieces_element, piecesOfAll]
    simp only [Node.run_eq _ child, runAll_eq _ rest, Scope.cutBack_extend]
  | .text _ | .comment _ | .instruction _ _ => rfl

theorem runAll_eq (scope : Scope) :
    (nodes : List Node) → runAll scope nodes = (piecesOfAll scope nodes, scope)
  | [] => rfl
  | n :: rest => by
    rw [runAll, piecesOfAll]
    simp only [Node.run_eq scope n, runAll_eq scope rest]

end

end XPathBench.Xml

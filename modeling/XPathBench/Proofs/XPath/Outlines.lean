import Mathlib.Data.Finset.Max
import Mathlib.Data.List.Chain
import XPathBench.XPath.Outline

/-!
# Types of outlines

The type that pieces announce, by how the pieces are made up.

* `Balanced`: brackets that open are closed again
* `operators`: the operators outside brackets
* `loosest?_eq_some`: the loosest of them decides the type
* `typeOf_group`, `typeOf_operand`: the type where there is none
* `Operand`: pieces that can stand between operators
-/

namespace XPathBench.XPath.Outline

variable {p q : Piece} {ps qs inner rest : List Piece} {kind : OperatorClass}

/-- Each opening bracket has a closing one behind it. Brackets of any kind close any other. -/
inductive Balanced : List Piece → Prop where
  | nil : Balanced []
  | plain {p : Piece} {rest : List Piece} : p.shape ≠ .opening → p.shape ≠ .closing →
      Balanced rest → Balanced (p :: rest)
  | group {p q : Piece} {inner rest : List Piece} : p.shape = .opening → Balanced inner →
      q.shape = .closing → Balanced rest → Balanced (p :: (inner ++ q :: rest))

theorem Balanced.single (ho : p.shape ≠ .opening) (hc : p.shape ≠ .closing) : Balanced [p] :=
  .plain ho hc .nil

theorem Balanced.append (hp : Balanced ps) (hq : Balanced qs) : Balanced (ps ++ qs) := by
  induction hp with
  | nil => exact hq
  | plain ho hc _ ih => exact .plain ho hc ih
  | group ho hinner hc _ _ ih =>
    rw [List.cons_append, List.append_assoc]
    exact .group ho hinner hc ih

theorem Balanced.tail (h : Balanced (p :: ps)) (hp : p.shape ≠ .opening) : Balanced ps := by
  generalize hlist : p :: ps = pieces at h
  cases h with
  | nil => cases hlist
  | plain _ _ hrest =>
    cases hlist
    exact hrest
  | group ho _ _ _ =>
    cases hlist
    exact absurd ho hp

/-! ## Operators outside brackets -/

/-- The operators of pieces inside `depth` brackets that stand outside all brackets. -/
def operatorsFrom (depth : Nat) : List Piece → List OperatorClass
  | [] => []
  | p :: rest => match p.shape with
    | .opening => operatorsFrom (depth + 1) rest
    | .closing => operatorsFrom (depth - 1) rest
    | .operator kind =>
      if depth = 0 then kind :: operatorsFrom depth rest else operatorsFrom depth rest
    | _ => operatorsFrom depth rest

/-- The operators outside brackets. -/
def operators (ps : List Piece) : List OperatorClass := operatorsFrom 0 ps

/-- Brackets that are closed again hide what is in them. -/
theorem operatorsFrom_inside {depth : Nat} (h : Balanced ps) :
    operatorsFrom (depth + 1) (ps ++ qs) = operatorsFrom (depth + 1) qs := by
  induction h generalizing depth qs with
  | nil => rfl
  | @plain p rest ho hc _ ih =>
    rw [List.cons_append, operatorsFrom]
    split
    · next h => exact absurd h ho
    · next h => exact absurd h hc
    · rw [if_neg (Nat.succ_ne_zero depth), ih]
    · exact ih
  | @group p q inner rest ho _ hc _ ihinner ih =>
    rw [List.cons_append, operatorsFrom, ho, List.append_assoc]
    show operatorsFrom (depth + 1 + 1) _ = _
    rw [ihinner, List.cons_append, operatorsFrom, hc]
    exact ih

theorem operators_append (h : Balanced ps) :
    operators (ps ++ qs) = operators ps ++ operators qs := by
  unfold operators
  induction h generalizing qs with
  | nil => rfl
  | @plain p rest ho hc _ ih =>
    rw [List.cons_append, operatorsFrom, operatorsFrom]
    split
    · next h => exact absurd h ho
    · next h => exact absurd h hc
    · rw [if_pos rfl, if_pos rfl, ih, List.cons_append]
    · exact ih
  | @group p q inner rest ho hinner hc _ _ ih =>
    have hskip {more : List Piece} : operatorsFrom 0 (p :: (inner ++ q :: more)) =
        operatorsFrom 0 more := by
      rw [operatorsFrom, ho]
      show operatorsFrom 1 _ = _
      rw [operatorsFrom_inside hinner, operatorsFrom, hc]
    rw [List.cons_append, List.append_assoc, List.cons_append, hskip, hskip, ih]

theorem operators_group (ho : p.shape = .opening) (hinner : Balanced inner)
    (hc : q.shape = .closing) : operators (p :: (inner ++ [q])) = [] := by
  unfold operators
  rw [operatorsFrom, ho]
  show operatorsFrom 1 _ = _
  rw [operatorsFrom_inside hinner, operatorsFrom, hc]
  rfl

theorem operators_operator (h : p.shape = .operator kind) : operators [p] = [kind] := by
  unfold operators
  rw [operatorsFrom, h]
  rfl

theorem operators_plain (ho : p.shape ≠ .opening) (hc : p.shape ≠ .closing)
    (hoperator : ∀ kind, p.shape ≠ .operator kind) : operators [p] = [] := by
  unfold operators
  rw [operatorsFrom]
  split
  · next h => exact absurd h ho
  · next h => exact absurd h hc
  · next kind h => exact absurd h (hoperator kind)
  · rfl

/-! ## The loosest operator -/

/-- The looser of two operators, the first if they bind alike. -/
def looser (found : Option OperatorClass) (kind : OperatorClass) : Option OperatorClass :=
  if found.all fun f => kind.precedence < f.precedence then some kind else found

theorem loosestFrom_eq {depth : Nat} {found : Option OperatorClass} :
    loosestFrom depth found ps = (operatorsFrom depth ps).foldl looser found := by
  induction ps generalizing depth found with
  | nil => rfl
  | cons p rest ih =>
    rw [loosestFrom, operatorsFrom]
    cases p.shape with
    | operator kind =>
      show (if _ then _ else _) = List.foldl looser found (if _ then _ else _)
      by_cases hdepth : depth = 0
      · rw [if_pos hdepth, List.foldl_cons, looser]
        by_cases hloose : found.all (fun f => kind.precedence < f.precedence) = true
        · rw [if_pos (by simp [hdepth, hloose]), if_pos hloose, ih]
        · rw [if_neg (by simp [hloose]), if_neg hloose, ih]
      · rw [if_neg (by simp [hdepth]), if_neg hdepth, ih]
    | _ => exact ih

theorem loosest?_eq : loosest? ps = (operators ps).foldl looser none := loosestFrom_eq

theorem precedence_inj {k : OperatorClass} (h : k.precedence = kind.precedence) : k = kind := by
  cases k <;> cases kind <;> first | rfl | cases h

/-- An operator stays the loosest if no looser one comes. -/
theorem foldl_looser_of_le {kinds : List OperatorClass}
    (h : ∀ k ∈ kinds, kind.precedence ≤ k.precedence) :
    kinds.foldl looser (some kind) = some kind := by
  induction kinds with
  | nil => rfl
  | cons k kinds ih =>
    rw [List.forall_mem_cons] at h
    have hk : looser (some kind) k = some kind := by
      rw [looser, if_neg]
      simpa using h.1
    rw [List.foldl_cons, hk, ih h.2]

theorem foldl_looser {kinds : List OperatorClass} {found : Option OperatorClass}
    (hmem : kind ∈ kinds) (hfound : ∀ f ∈ found, kind.precedence ≤ f.precedence)
    (h : ∀ k ∈ kinds, kind.precedence ≤ k.precedence) :
    kinds.foldl looser found = some kind := by
  induction kinds generalizing found with
  | nil => cases hmem
  | cons k kinds ih =>
    rw [List.forall_mem_cons] at h
    rw [List.foldl_cons]
    have hnext : looser found k = some k ∨ looser found k = found := by
      rw [looser]
      split
      · exact .inl rfl
      · exact .inr rfl
    by_cases hkind : k = kind
    · subst hkind
      have hk : looser found k = some k := by
        cases found with
        | none => rfl
        | some f =>
          rw [looser]
          split
          · rfl
          · next hf =>
            have hle := hfound f rfl
            have hge : ¬ k.precedence < f.precedence := by simpa using hf
            rw [precedence_inj (Nat.le_antisymm (Nat.not_lt.mp hge) hle)]
      rw [hk, foldl_looser_of_le h.2]
    · refine ih ((List.mem_cons.mp hmem).resolve_left (Ne.symm hkind)) (fun f hf => ?_) h.2
      rcases hnext with hnext | hnext
      · rw [hnext] at hf
        cases hf
        exact h.1
      · rw [hnext] at hf
        exact hfound f hf

/-- An operator outside brackets is the loosest if none binds looser. -/
theorem loosest?_eq_some (hmem : kind ∈ operators ps)
    (h : ∀ k ∈ operators ps, kind.precedence ≤ k.precedence) : loosest? ps = some kind := by
  rw [loosest?_eq]
  exact foldl_looser hmem nofun h

theorem loosest?_eq_none (h : operators ps = []) : loosest? ps = none := by
  rw [loosest?_eq, h]
  rfl

/-! ## Types -/

theorem typeOf_operator (hmem : kind ∈ operators ps)
    (h : ∀ k ∈ operators ps, kind.precedence ≤ k.precedence) :
    typeOf ps = kind.resultType := by
  have hne : ps.isEmpty = false := by
    cases ps with
    | nil => cases hmem
    | cons => rfl
  rw [typeOf, loosest?_eq_some hmem h, hne]
  rfl

/-- If all operators that may be the loosest are of one type, this is the type. -/
theorem typeOf_of_level {j : Nat} {t : ResultType} (hmem : kind ∈ operators ps)
    (hlevel : ∀ k ∈ operators ps, j ≤ k.precedence)
    (ht : ∀ k : OperatorClass, j ≤ k.precedence → k.precedence ≤ kind.precedence →
      k.resultType = t) : typeOf ps = t := by
  obtain ⟨least, hleast, hle⟩ := (operators ps).toFinset.exists_min_image OperatorClass.precedence
    ⟨kind, List.mem_toFinset.mpr hmem⟩
  rw [List.mem_toFinset] at hleast
  rw [typeOf_operator hleast fun k hk => hle k (List.mem_toFinset.mpr hk)]
  exact ht least (hlevel least hleast) (hle kind (List.mem_toFinset.mpr hmem))

/-- Brackets that are closed again do not close the brackets around them. -/
theorem closesAtEnd_append {depth : Nat} (h : Balanced ps) :
    closesAtEnd (depth + 1) (ps ++ qs) = closesAtEnd (depth + 1) qs := by
  induction h generalizing depth qs with
  | nil => rfl
  | @plain p rest ho hc _ ih =>
    rw [List.cons_append, closesAtEnd]
    split
    · next h => exact absurd h ho
    · next h => exact absurd h hc
    · exact ih
  | @group p q inner rest ho _ hc _ ihinner ih =>
    rw [List.cons_append, closesAtEnd, ho, List.append_assoc]
    show closesAtEnd (depth + 1 + 1) _ = _
    rw [ihinner, List.cons_append, closesAtEnd, hc]
    show (if depth + 1 + 1 ≤ 1 then (rest ++ qs).isEmpty
      else closesAtEnd (depth + 1) (rest ++ qs)) = _
    rw [if_neg (by omega), ih]

/-- A group in parentheses ends where its first bracket is closed. -/
theorem isGroup_eq (ho : p.shape = .opening) (hinner : Balanced inner) (hc : q.shape = .closing) :
    isGroup (p :: (inner ++ q :: rest)) = (p.text == ['('] && rest.isEmpty) := by
  rw [isGroup, closesAtEnd_append hinner, closesAtEnd, hc, ho]
  rfl

/-- A group in parentheses announces the type of what is in it. -/
theorem typeOf_group (ho : p.shape = .opening) (hop : p.text = ['(']) (hinner : Balanced inner)
    (hc : q.shape = .closing) (hcp : q.text = [')']) :
    typeOf (p :: (inner ++ [q])) = typeOf inner := by
  have hgroup : isParenthesized (p :: (inner ++ [q])) = true := by
    have hlast : (p :: (inner ++ [q])).getLast? = some q := by
      rw [← List.cons_append, List.getLast?_concat]
    rw [isParenthesized, isGroup_eq ho hinner hc, hlast, hop]
    simp [hcp]
  rw [typeOf, loosest?_eq_none (operators_group ho hinner hc)]
  simp [hgroup]

/-- Pieces without operator that are no group announce the type of an operand. -/
theorem typeOf_operand (hne : ps ≠ []) (h : operators ps = []) (hgroup : isGroup ps = false) :
    typeOf ps = operandType ps := by
  rw [typeOf, loosest?_eq_none h, isParenthesized, hgroup]
  simp [hne]

theorem isGroup_of_ne (h : p.shape ≠ .opening) : isGroup (p :: rest) = false := by
  rw [isGroup, Bool.and_eq_false_iff, Bool.and_eq_false_iff]
  exact .inl (.inl (by simpa using h))

/-! ## Operands -/

/-- Behind a number stands a piece with text of its own. -/
def Parted (ps : List Piece) : Prop :=
  ps.IsChain fun p q => p.shape = .number → q.text ≠ []

variable {k : Nat}

theorem Parted.append (hp : Parted ps) (hq : Parted qs) (h : ∀ q ∈ qs.head?, q.text ≠ []) :
    Parted (ps ++ qs) :=
  List.isChain_append.mpr ⟨hp, hq, fun _ _ q hq _ => h q hq⟩

theorem Parted.append_of_ne (hp : ∀ p ∈ ps, p.shape ≠ .number) (hq : Parted qs) :
    Parted (ps ++ qs) := by
  induction ps with
  | nil => exact hq
  | cons p ps ih =>
    rw [List.forall_mem_cons] at hp
    exact List.isChain_cons.mpr ⟨fun _ _ h => absurd h hp.1, ih hp.2⟩

theorem Parted.cons (hp : p.shape ≠ .number) (hq : Parted qs) : Parted (p :: qs) :=
  Parted.append_of_ne (List.forall_mem_singleton.mpr hp) hq

/-- Pieces that can be an operand of operators that bind as tightly as `k`. -/
structure Operand (k : Nat) (ps : List Piece) : Prop where
  balanced : Balanced ps
  parted : Parted ps
  level : ∀ kind ∈ operators ps, k ≤ kind.precedence

theorem Operand.weaken {j : Nat} (h : Operand k ps) (hle : j ≤ k) : Operand j ps :=
  ⟨h.balanced, h.parted, fun kind hkind => hle.trans (h.level kind hkind)⟩

/-- A single piece that is neither bracket nor operator. -/
theorem Operand.single (ho : p.shape ≠ .opening) (hc : p.shape ≠ .closing)
    (hoperator : ∀ kind, p.shape ≠ .operator kind) : Operand k [p] where
  balanced := .single ho hc
  parted := List.isChain_singleton p
  level := by simp [operators_plain ho hc hoperator]

theorem Operand.append (hp : Operand k ps) (hq : Operand k qs)
    (h : ∀ q ∈ qs.head?, q.text ≠ []) : Operand k (ps ++ qs) where
  balanced := hp.balanced.append hq.balanced
  parted := hp.parted.append hq.parted h
  level := by
    rw [operators_append hp.balanced]
    exact List.forall_mem_append.mpr ⟨hp.level, hq.level⟩

theorem Operand.append_of_ne (hp : Operand k ps) (hq : Operand k qs)
    (h : ∀ p ∈ ps, p.shape ≠ .number) : Operand k (ps ++ qs) where
  balanced := hp.balanced.append hq.balanced
  parted := .append_of_ne h hq.parted
  level := by
    rw [operators_append hp.balanced]
    exact List.forall_mem_append.mpr ⟨hp.level, hq.level⟩

/-- An operator stands between operands, or before one. -/
theorem Operand.operator {text : List Char} (hk : k ≤ kind.precedence) :
    Operand k [⟨.operator kind, text⟩] where
  balanced := .single (by simp) (by simp)
  parted := List.isChain_singleton _
  level := by simpa [operators_operator (p := ⟨.operator kind, text⟩) rfl] using hk

/-- A mark or a name before an operand makes no operator. -/
theorem Operand.cons (hp : p.shape = .mark ∨ p.shape = .name) (hq : Operand k qs) :
    Operand k (p :: qs) := by
  have hshape : p.shape ≠ .opening ∧ p.shape ≠ .closing ∧ (∀ kind, p.shape ≠ .operator kind) ∧
      p.shape ≠ .number := by
    rcases hp with hp | hp <;> simp [hp]
  exact (Operand.single hshape.1 hshape.2.1 hshape.2.2.1).append_of_ne hq
    (List.forall_mem_singleton.mpr hshape.2.2.2)

theorem Operand.nil : Operand k [] := ⟨.nil, List.isChain_nil, nofun⟩

theorem Operand.around {text : List Char} (hp : Operand k ps) (hq : Operand k qs)
    (hk : k ≤ kind.precedence) (htext : text ≠ []) :
    Operand k (ps ++ ⟨.operator kind, text⟩ :: qs) := by
  have hbehind : Operand k ([⟨.operator kind, text⟩] ++ qs) :=
    (Operand.operator hk).append_of_ne hq (List.forall_mem_singleton.mpr (by simp))
  exact hp.append hbehind (by simpa using htext)

theorem Operand.mem_operators {text : List Char} (hp : Operand k ps) :
    kind ∈ operators (ps ++ ⟨.operator kind, text⟩ :: qs) := by
  rw [operators_append hp.balanced]
  exact List.mem_append_right _ List.mem_cons_self

/-- Whatever stands in brackets is an operand. -/
theorem Operand.group (ho : p.shape = .opening) (hps : Operand 0 ps) (hc : q.shape = .closing)
    (hq : q.text ≠ []) : Operand k (p :: (ps ++ [q])) where
  balanced := .group ho hps.balanced hc .nil
  parted := .cons (by simp [ho]) (hps.parted.append (List.isChain_singleton q) (by simpa using hq))
  level := by simp [operators_group ho hps.balanced hc]

theorem operators_eq_nil_of_level (h : ∀ k ∈ operators ps, 10 ≤ k.precedence) :
    operators ps = [] := by
  cases hlist : operators ps with
  | nil => rfl
  | cons kind kinds =>
    have := h kind (by simp [hlist])
    cases kind <;> simp [OperatorClass.precedence] at this

end XPathBench.XPath.Outline

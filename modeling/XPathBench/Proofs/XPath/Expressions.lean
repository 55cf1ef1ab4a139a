import XPathBench.Proofs.XPath.Rules

/-!
# What expressions announce

Pieces of an expression that is made of others, from the pieces of these.

* `sound_binary`, `sound_negate`: operators
* `Located`: location steps and paths
* `Primary`, `sound_filtered`: operands without slash
-/

namespace XPathBench.XPath

open Outline

variable {k : Nat} {ps qs : List Piece} {e left right : Expr} {op : BinaryOp}
  {shown : OperatorClass} {text : List Char}

/-! ## Operators -/

/-- A subtraction may be shown as a negation: operators that bind less tightly than the one and more
tightly than the other yield numbers like both. -/
theorem typeOf_around {kind : OperatorClass} (hp : Operand k ps) (hq : Operand (k + 1) qs)
    (hkind : kind.precedence = k)
    (hshown : shown = kind ∨ shown = .negation ∧ kind = .additive) (htext : text ≠ []) :
    Operand k (ps ++ ⟨.operator shown, text⟩ :: qs) ∧
      typeOf (ps ++ ⟨.operator shown, text⟩ :: qs) = kind.resultType := by
  have hle : k ≤ shown.precedence := by
    rcases hshown with rfl | ⟨rfl, rfl⟩
    · exact Nat.le_of_eq hkind.symm
    · rw [← hkind]
      decide
  have hoperand := hp.around (hq.weaken (Nat.le_succ k)) hle htext
  refine ⟨hoperand, typeOf_of_level hp.mem_operators hoperand.level fun l hl hlshown => ?_⟩
  subst hkind
  rcases hshown with rfl | ⟨rfl, rfl⟩
  · rw [precedence_inj (Nat.le_antisymm hlshown hl)]
  · cases l <;> first | rfl | exact absurd hl (by decide) | exact absurd hlshown (by decide)

theorem sound_binary (hleft : Sound k ps left) (hright : Sound (k + 1) qs right)
    (hop : op.kind.precedence = k)
    (hshown : shown = op.kind ∨ shown = .negation ∧ op.kind = .additive) (htext : text ≠ []) :
    Sound k (ps ++ ⟨.operator shown, text⟩ :: qs) (.binary op left right) := by
  obtain ⟨hoperand, htype⟩ := typeOf_around hleft.operand hright.operand hop hshown htext
  refine ⟨hoperand, .inr ?_⟩
  rw [htype]
  exact Expr.yields_binary

/-- A sign makes a number of what stands behind it. -/
theorem typeOf_minus (hp : Operand 7 ps) : Operand 7 (⟨.operator .negation, ['-']⟩ :: ps) ∧
    typeOf (⟨.operator .negation, ['-']⟩ :: ps) = .number := by
  have hoperand : Operand 7 (⟨.operator .negation, ['-']⟩ :: ps) :=
    Operand.nil.around hp (Nat.le_refl 7) (by simp)
  exact ⟨hoperand, typeOf_operator (Operand.nil (k := 7).mem_operators) hoperand.level⟩

theorem sound_negate (h : Sound 7 ps e) :
    Sound 7 (⟨.operator .negation, ['-']⟩ :: ps) (.negate e) := by
  obtain ⟨hoperand, htype⟩ := typeOf_minus h.operand
  refine ⟨hoperand, .inr ?_⟩
  rw [htype]
  exact Expr.yields_negate

/-! ## Predicates -/

/-- A predicate in brackets. -/
def IsPredicate (ps : List Piece) : Prop :=
  ∃ inner, Operand 0 inner ∧ ps = ⟨.opening, ['[']⟩ :: (inner ++ [⟨.closing, [']']⟩])

theorem IsPredicate.operand (h : IsPredicate ps) : Operand k ps := by
  obtain ⟨inner, hinner, rfl⟩ := h
  exact .group rfl hinner rfl (by simp)

/-- The pieces of predicates start with a bracket, if there are any. -/
theorem predicates_cases {α : Type} {found : α → List Piece → Prop} {as : List α}
    (h : Parser.Each found as ps) (hfound : ∀ a qs, found a qs → IsPredicate qs) :
    Operand k ps ∧ (as = [] ∧ ps = [] ∨ ∃ rest, ps = ⟨.opening, ['[']⟩ :: rest) := by
  induction h with
  | nil => exact ⟨⟨.nil, List.isChain_nil, nofun⟩, .inl ⟨rfl, rfl⟩⟩
  | cons ha _ ih =>
    have hfirst := hfound _ _ ha
    obtain ⟨inner, _, rfl⟩ := hfound _ _ ha
    refine ⟨hfirst.operand.append ih.1 ?_, .inr ⟨_, rfl⟩⟩
    rcases ih.2 with ⟨_, rfl⟩ | ⟨rest, rfl⟩ <;> simp

/-! ## Steps and paths -/

/-- Pieces of an operand that announce a node-set. -/
structure Located (k : Nat) (ps : List Piece) : Prop where
  operand : Operand k ps
  nodeSet : typeOf ps = .nodeSet

theorem Located.weaken {j : Nat} (h : Located k ps) (hle : j ≤ k) : Located j ps :=
  ⟨h.operand.weaken hle, h.nodeSet⟩

theorem Located.sound (h : Located k ps) (he : e.Yields .nodeSet) : Sound k ps e :=
  ⟨h.operand, .inr (h.nodeSet ▸ he)⟩

/-- A slash makes a path of what stands around it. -/
theorem located_slash (hp : Operand 9 ps) (hq : Operand 9 qs) (htext : text ≠ []) :
    Located 9 (ps ++ ⟨.operator .slash, text⟩ :: qs) :=
  have hoperand : Operand 9 (ps ++ ⟨.operator .slash, text⟩ :: qs) :=
    hp.around hq (Nat.le_refl 9) htext
  ⟨hoperand, typeOf_operator hp.mem_operators hoperand.level⟩

/-- A mark makes a step of what stands behind it, and so does a name that no call starts with. -/
theorem located_cons {p : Piece} {rest : List Piece} (h : Operand 10 rest)
    (hp : p.shape = .mark ∨ p.shape = .name ∧ (isNodeType p.text = true ∨ isGroup rest = false)) :
    Located 10 (p :: rest) := by
  have hshape : p.shape = .mark ∨ p.shape = .name := hp.imp_right And.left
  have hoperand := h.cons hshape
  have hopening : p.shape ≠ .opening := by
    rcases hshape with hp | hp <;> simp [hp]
  refine ⟨hoperand, ?_⟩
  rw [typeOf_operand (List.cons_ne_nil p rest) (operators_eq_nil_of_level hoperand.level)
    (isGroup_of_ne hopening)]
  cases rest with
  | nil =>
    rcases hshape with hp | hp <;> simp [operandType, hp]
  | cons q rest =>
    rcases hp with hp | ⟨hp, hnode | hgroup⟩
    · simp [operandType, hp]
    · simp [operandType, hnode]
    · simp [operandType, hgroup]

/-- Pieces with something behind them are no group. -/
theorem isGroup_append {q : Piece} (hp : Balanced ps) (hne : ps ≠ []) :
    isGroup (ps ++ q :: qs) = false := by
  cases hp with
  | nil => exact absurd rfl hne
  | plain ho _ _ => exact isGroup_of_ne ho
  | group ho hinner hc _ =>
    rw [List.cons_append, List.append_assoc, List.cons_append, isGroup_eq ho hinner hc]
    simp

/-- What has a predicate behind it can only be a node-set. -/
theorem located_append (hp : Operand 10 ps) (hne : ps ≠ [])
    (hq : Operand 10 (⟨.opening, ['[']⟩ :: qs)) : Located 10 (ps ++ ⟨.opening, ['[']⟩ :: qs) := by
  have hoperand := hp.append hq (by simp)
  refine ⟨hoperand, ?_⟩
  rw [typeOf_operand (by simp) (operators_eq_nil_of_level hoperand.level)
    (isGroup_append hp.balanced hne)]
  obtain ⟨p, rest, rfl⟩ := List.exists_cons_of_ne_nil hne
  cases rest with
  | nil => simp [operandType, isGroup]
  | cons q rest =>
    by_cases hname : p.shape = .name
    · have hbalanced : Balanced (q :: rest) := hp.balanced.tail (by simp [hname])
      have hgroup : isGroup (q :: (rest ++ ⟨.opening, ['[']⟩ :: qs)) = false :=
        isGroup_append hbalanced (List.cons_ne_nil q rest)
      simp [operandType, hgroup]
    · simp [operandType, hname]

/-- A test stands for a mark, a name, or a name that is no function before parentheses. -/
theorem located_test {token : Token} {b : Bool} (h : token.Spells b ps)
    (htest : testAhead [token] = true) (hq : Operand 10 qs)
    (hqs : qs = [] ∨ ∃ rest, qs = ⟨.opening, ['[']⟩ :: rest) : Located 10 (ps ++ qs) := by
  have hgroup : isGroup qs = false := by
    rcases hqs with rfl | ⟨rest, rfl⟩ <;> rfl
  cases token with
  | nameTest value =>
    obtain ⟨text, rfl | rfl⟩ := h
    · exact located_cons hq (.inl rfl)
    · exact located_cons hq (.inr ⟨rfl, .inr hgroup⟩)
  | nodeTest value =>
    obtain ⟨text, rfl | ⟨hnode, target, htarget, rfl⟩⟩ := h
    · exact located_cons hq (.inl rfl)
    · have hinner : Operand 0 target := by
        rcases htarget with rfl | ⟨quoted, rfl⟩
        · exact .nil
        · exact .single (by simp) (by simp) (by simp)
      have hparens := hinner.group (k := 10) (p := ⟨.opening, ['(']⟩) (q := ⟨.closing, [')']⟩) rfl
        rfl (by simp)
      refine located_cons (hparens.append hq ?_) (.inr ⟨rfl, .inl hnode⟩)
      rcases hqs with rfl | ⟨rest, rfl⟩ <;> simp
  | _ => cases htest

theorem located_axis {value : Axis} {b : Bool} (h : (Token.axis value).Spells b ps)
    (hq : Operand 10 qs) : Located 10 (ps ++ qs) := by
  obtain ⟨text, rfl | rfl⟩ := h
  · exact located_cons hq (.inl rfl)
  · exact located_cons (hq.cons (.inl rfl)) (.inr ⟨rfl, .inr (isGroup_of_ne (by simp))⟩)

/-! ## Operands without slash -/

/-- A name before parentheses announces the type of a function, if it is no test for a kind. -/
theorem typeOf_call {name : List Char} (hinner : Operand 0 ps) :
    typeOf (⟨.name, name⟩ :: ⟨.opening, ['(']⟩ :: (ps ++ [⟨.closing, [')']⟩])) =
      if isNodeType name then .nodeSet else functionType name := by
  have hgroup : isGroup (⟨.opening, ['(']⟩ :: (ps ++ [⟨.closing, [')']⟩])) = true := by
    rw [isGroup_eq rfl hinner.balanced rfl]
    rfl
  have hoperand : Operand 10
      (⟨.name, name⟩ :: ⟨.opening, ['(']⟩ :: (ps ++ [⟨.closing, [')']⟩])) :=
    (hinner.group rfl rfl (by simp)).cons (.inr rfl)
  rw [typeOf_operand (by simp) (operators_eq_nil_of_level hoperand.level)
    (isGroup_of_ne (by simp))]
  cases hnode : isNodeType name <;> simp [operandType, hnode, hgroup]

/-- The pieces of an expression that needs no brackets to be filtered. -/
inductive Primary : List Piece → Expr → Prop where
  | bound {name : Xml.PrefixedName} {text : List Char} :
      Primary [⟨.variable, text⟩] (.variable name)
  | literal {value : String} {text : List Char} : Primary [⟨.literal, text⟩] (.literal value)
  | number {value : Float} {text : List Char} : Primary [⟨.number, text⟩] (.number value)
  | call {name : Xml.PrefixedName} {arguments : List Expr} {inner : List Piece} : Operand 0 inner →
      Primary (⟨.name, name.text.toList⟩ :: ⟨.opening, ['(']⟩ :: (inner ++ [⟨.closing, [')']⟩]))
        (.call name arguments)
  | group {inner : List Piece} {e : Expr} : Sound 0 inner e →
      Primary (⟨.opening, ['(']⟩ :: (inner ++ [⟨.closing, [')']⟩])) e

theorem Primary.operand (h : Primary ps e) : Operand 10 ps := by
  cases h with
  | bound | literal | number => exact .single (by simp) (by simp) (by simp)
  | call hinner =>
    exact (hinner.group rfl rfl (by simp)).cons (.inr rfl)
  | group hinner =>
    exact .group rfl (hinner.operand.weaken (Nat.zero_le _)) rfl (by simp)

theorem Primary.announces (h : Primary ps e) : Announces ps e := by
  have hoperators := operators_eq_nil_of_level h.operand.level
  cases h with
  | bound =>
    left
    rw [typeOf_operand (by simp) hoperators (isGroup_of_ne (by simp))]
    rfl
  | literal =>
    right
    rw [typeOf_operand (by simp) hoperators (isGroup_of_ne (by simp))]
    exact Expr.yields_literal
  | number =>
    right
    rw [typeOf_operand (by simp) hoperators (isGroup_of_ne (by simp))]
    exact Expr.yields_number
  | call hinner =>
    right
    rw [typeOf_call hinner]
    exact Expr.yields_call
  | group hinner =>
    rw [Announces, typeOf_group rfl rfl hinner.operand.balanced rfl rfl]
    exact hinner.announces

theorem Primary.ne_nil (h : Primary ps e) : ps ≠ [] := by
  cases h <;> exact List.cons_ne_nil _ _

theorem yields_foldl_filter {predicates : List Expr} (h : e.Yields .nodeSet) :
    (predicates.foldl Expr.filter e).Yields .nodeSet := by
  induction predicates generalizing e with
  | nil => exact h
  | cons p predicates ih => exact ih Expr.yields_filter

theorem sound_filtered {predicates : List Expr} (h : Primary ps e)
    (hpredicates : Parser.Each (fun _ => IsPredicate) predicates qs) :
    Sound 10 (ps ++ qs) (predicates.foldl Expr.filter e) := by
  obtain ⟨hoperand, ⟨rfl, rfl⟩ | ⟨rest, rfl⟩⟩ :=
    predicates_cases (k := 10) hpredicates fun _ _ h => h
  · rw [List.append_nil]
    exact ⟨h.operand, h.announces⟩
  · refine ⟨h.operand.append hoperand (by simp), .inr ?_⟩
    rw [(located_append h.operand h.ne_nil hoperand).nodeSet]
    cases predicates with
    | nil => cases hpredicates
    | cons =>
      rw [List.foldl_cons]
      exact yields_foldl_filter Expr.yields_filter

end XPathBench.XPath

import XPathBench.Proofs.XPath.Expressions
import XPathBench.Proofs.XPath.Spacing

/-!
# Types announced for trees

The type that is announced for the text of an expression is that of its outermost construct, if no
slash that stands alone is followed by an operator that looks like a step.

* `Shown`: tokens are read as an operand that announces a type
* `Tree.Expr.shown`: the tokens of an expression are
* `announcedType_of_spaced`: the type announced for a text
-/

namespace XPathBench.XPath

open Outline

variable {k level : Nat} {t type : ResultType} {ahead b : Bool} {op : BinaryOp} {name : List Char}
  {tokens left right later : List (List Char)} {ps : List Piece}

/-! ## Operands -/

/-- Tokens are read as an operand that announces a type. If they are to stand before an operator
that looks like a step, an operator may stand behind them. -/
structure ShownBy (k : Nat) (t : ResultType) (ahead : Bool) (tokens : List (List Char))
    (ps : List Piece) (next : Bool) : Prop where
  lexes : LexesAs false tokens ps next
  ready : ahead = true → next = true
  operand : Operand k ps
  ne_nil : ps ≠ []
  announces : typeOf ps = t

/-- Tokens are read as an operand that announces a type. -/
def Shown (k : Nat) (t : ResultType) (ahead : Bool) (tokens : List (List Char)) : Prop :=
  ∃ ps next, ShownBy k t ahead tokens ps next

/-- Tokens are read as pieces that may stand in brackets. -/
def Bracketable (tokens : List (List Char)) : Prop :=
  ∃ ps next, LexesAs false tokens ps next ∧ Operand 0 ps

theorem Shown.bracketable (h : Shown k t ahead tokens) : Bracketable tokens := by
  obtain ⟨ps, next, h⟩ := h
  exact ⟨ps, next, h.lexes, h.operand.weaken (Nat.zero_le k)⟩

theorem Shown.weaken (h : Shown k t ahead tokens) {j : Nat} {ahead' : Bool} (hle : j ≤ k)
    (hahead : ahead' = true → ahead = true) : Shown j t ahead' tokens := by
  obtain ⟨ps, next, h⟩ := h
  exact ⟨ps, next, h.lexes, fun h' => h.ready (hahead h'), h.operand.weaken hle, h.ne_nil,
    h.announces⟩

/-! ## Single tokens -/

theorem shown_single {token : List Char} {shape : Shape} (h : ReadsAs false token shape)
    (hshape : shape = .literal ∨ shape = .number ∨ shape = .variable) :
    Shown k (operandType [⟨shape, token⟩]) ahead [token] := by
  have hplain : shape ≠ .opening ∧ shape ≠ .closing ∧ ∀ kind, shape ≠ .operator kind := by
    rcases hshape with rfl | rfl | rfl <;> simp
  have hoperand (k : Nat) : Operand k [⟨shape, token⟩] :=
    .single hplain.1 hplain.2.1 hplain.2.2
  refine ⟨[⟨shape, token⟩], true, .single h ?_, fun _ => rfl, hoperand k, List.cons_ne_nil _ _, ?_⟩
  · rcases hshape with rfl | rfl | rfl <;> rfl
  · exact typeOf_operand (List.cons_ne_nil _ _) (operators_eq_nil_of_level (hoperand 10).level)
      (isGroup_of_ne hplain.1)

theorem shown_root : Shown 9 .nodeSet false [['/']] := by
  have hoperand : Operand 9 [⟨.operator .slash, ['/']⟩] := .operator (Nat.le_refl 9)
  refine ⟨_, false, .single (readsAs_slash .single) rfl, nofun, hoperand, List.cons_ne_nil _ _, ?_⟩
  have hslash : OperatorClass.slash ∈ operators [⟨.operator .slash, ['/']⟩] := by
    simp [operators_operator]
  exact typeOf_operator hslash hoperand.level

/-! ## Brackets -/

theorem readsAs_openParen : ReadsAs b ['('] .opening := readsAs_char (by decide) fun _ => rfl

theorem readsAs_closeParen : ReadsAs b [')'] .closing := readsAs_char (by decide) fun _ => rfl

theorem readsAs_openBracket : ReadsAs b ['['] .opening := readsAs_char (by decide) fun _ => rfl

theorem readsAs_closeBracket : ReadsAs b [']'] .closing := readsAs_char (by decide) fun _ => rfl

theorem readsAs_comma : ReadsAs b [','] .mark := readsAs_char (by decide) fun _ => rfl

/-- Tokens in parentheses. -/
theorem LexesAs.parens {next : Bool} (h : LexesAs false tokens ps next) :
    LexesAs b (['('] :: (tokens ++ [[')']])) (⟨.opening, ['(']⟩ :: (ps ++ [⟨.closing, [')']⟩]))
      true :=
  .cons readsAs_openParen (h.append (.single readsAs_closeParen rfl))

/-- Parentheses around an operand announce the type of what is in them. -/
theorem Shown.parens (h : Shown k t false tokens) {j : Nat} :
    Shown j t ahead (['('] :: (tokens ++ [[')']])) := by
  obtain ⟨ps, next, h⟩ := h
  refine ⟨_, true, h.lexes.parens, fun _ => rfl, ?_, List.cons_ne_nil _ _, ?_⟩
  · exact (h.operand.weaken (Nat.zero_le k)).group rfl rfl (by simp)
  · exact (typeOf_group rfl rfl h.operand.balanced rfl rfl).trans h.announces

/-- A call announces the type of the function. -/
theorem shown_call (hread : ReadsAs false name .name) (hname : isNodeType name = false)
    (h : Bracketable tokens) :
    Shown k (functionType name) ahead (name :: ['('] :: (tokens ++ [[')']])) := by
  obtain ⟨ps, next, hlexes, hoperand⟩ := h
  refine ⟨_, true, .cons hread hlexes.parens, fun _ => rfl,
    (hoperand.group rfl rfl (by simp)).cons (.inr rfl), List.cons_ne_nil _ _, ?_⟩
  rw [typeOf_call hoperand, hname]
  rfl

/-! ## Operators -/

theorem shown_binary (hlevel : op.level = k) (hleft : Shown k t op.looksLikeTest left)
    (hright : Shown (k + 1) type ahead right) :
    Shown k op.resultType ahead (left ++ op.symbol :: right) := by
  obtain ⟨ps, middle, hleft⟩ := hleft
  obtain ⟨qs, next, hright⟩ := hright
  obtain ⟨shown, hread, hshown⟩ := exists_readsAs_symbol op hleft.ready
  have hkind : op.kind.precedence = k := by
    subst hlevel
    cases op <;> rfl
  have htype : op.kind.resultType = op.resultType := by
    cases op <;> rfl
  have hsymbol : op.symbol ≠ [] := by
    cases op <;> decide
  obtain ⟨hoperand, hannounced⟩ := typeOf_around hleft.operand hright.operand hkind hshown hsymbol
  exact ⟨_, next, hleft.lexes.append (.cons hread hright.lexes), hright.ready, hoperand,
    List.append_ne_nil_of_left_ne_nil hleft.ne_nil _, hannounced.trans htype⟩

theorem shown_negate (h : Shown 7 t ahead tokens) : Shown 7 .number ahead (['-'] :: tokens) := by
  obtain ⟨ps, next, h⟩ := h
  obtain ⟨hoperand, hannounced⟩ := typeOf_minus h.operand
  have hread : ReadsAs false ['-'] (.operator .negation) :=
    readsAs_char (by decide) fun _ => rfl
  exact ⟨_, next, .cons hread h.lexes, h.ready, hoperand, List.cons_ne_nil _ _, hannounced⟩

/-! ## Predicates -/

/-- Tokens are read as predicates behind an operand, if they are any. -/
def Filtering (tokens : List (List Char)) : Prop :=
  ∃ ps, LexesAs true tokens ps true ∧ Operand 10 ps ∧
    (ps = [] ∨ ∃ rest, ps = ⟨.opening, ['[']⟩ :: rest)

theorem LexesAs.predicate {next : Bool} (h : LexesAs false tokens ps next) :
    LexesAs b (['['] :: (tokens ++ [[']']])) (⟨.opening, ['[']⟩ :: (ps ++ [⟨.closing, [']']⟩]))
      true :=
  .cons readsAs_openBracket (h.append (.single readsAs_closeBracket rfl))

theorem filtering_cons (h : Bracketable tokens) (hlater : Filtering later) :
    Filtering (['['] :: (tokens ++ [']'] :: later)) := by
  obtain ⟨ps, next, hlexes, hoperand⟩ := h
  obtain ⟨qs, hlater, hqs, hcases⟩ := hlater
  have hgroup : Operand 10 (⟨.opening, ['[']⟩ :: (ps ++ [⟨.closing, [']']⟩])) :=
    hoperand.group rfl rfl (by simp)
  have hall := hlexes.predicate.append hlater (b := true)
  simp only [List.cons_append, List.append_assoc, List.nil_append] at hall
  refine ⟨_, hall, ?_, .inr ⟨_, rfl⟩⟩
  have happend := hgroup.append hqs (by rcases hcases with rfl | ⟨rest, rfl⟩ <;> simp)
  simpa using happend

/-- Only a node-set can have a predicate. -/
theorem shown_filter (hbase : Shown 10 t false left) (h : Bracketable tokens) :
    Shown 10 .nodeSet ahead (left ++ ['['] :: (tokens ++ [[']']])) := by
  obtain ⟨ps, middle, hbase⟩ := hbase
  obtain ⟨qs, next, hlexes, hoperand⟩ := h
  have hlocated := located_append hbase.operand hbase.ne_nil
    (hoperand.group (p := ⟨.opening, ['[']⟩) (q := ⟨.closing, [']']⟩) rfl rfl (by simp))
  exact ⟨_, true, hbase.lexes.append hlexes.predicate, fun _ => rfl, hlocated.operand,
    List.append_ne_nil_of_left_ne_nil hbase.ne_nil _, hlocated.nodeSet⟩

/-! ## Steps and paths -/

/-- Tokens are read as a step, behind which an operator may stand. -/
def Stepping (tokens : List (List Char)) : Prop :=
  ∃ ps, LexesAs false tokens ps true ∧ Located 10 ps ∧ ps ≠ []

theorem Stepping.shown (h : Stepping tokens) : Shown 9 .nodeSet ahead tokens := by
  obtain ⟨ps, hlexes, hlocated, hne⟩ := h
  exact ⟨ps, true, hlexes, fun _ => rfl, hlocated.operand.weaken (by decide), hne,
    hlocated.nodeSet⟩

theorem shown_absolute (slash : Tree.Slash) (h : Stepping tokens) :
    Shown 9 .nodeSet ahead (slash.text :: tokens) := by
  obtain ⟨ps, hlexes, hlocated, _⟩ := h
  have htext : slash.text ≠ [] := by
    cases slash <;> decide
  have hpath := located_slash (Operand.nil (k := 9)) (hlocated.operand.weaken (by decide)) htext
  exact ⟨_, true, .cons (readsAs_slash slash) hlexes, fun _ => rfl, hpath.operand,
    List.cons_ne_nil _ _, hpath.nodeSet⟩

theorem shown_further (slash : Tree.Slash) (hbase : Shown 9 t false left) (h : Stepping tokens) :
    Shown 9 .nodeSet ahead (left ++ slash.text :: tokens) := by
  obtain ⟨ps, middle, hbase⟩ := hbase
  obtain ⟨qs, hlexes, hlocated, _⟩ := h
  have htext : slash.text ≠ [] := by
    cases slash <;> decide
  have hpath := located_slash hbase.operand (hlocated.operand.weaken (by decide)) htext
  exact ⟨_, true, hbase.lexes.append (.cons (readsAs_slash slash) hlexes), fun _ => rfl,
    hpath.operand, List.append_ne_nil_of_left_ne_nil hbase.ne_nil _, hpath.nodeSet⟩

theorem stepping_point : Stepping [['.']] :=
  ⟨_, .single readsAs_point rfl, located_cons .nil (.inl rfl), List.cons_ne_nil _ _⟩

theorem stepping_points : Stepping [['.', '.']] :=
  ⟨_, .single readsAs_points rfl, located_cons .nil (.inl rfl), List.cons_ne_nil _ _⟩

namespace Tree

theorem Kind.isNodeType_word (kind : Kind) : isNodeType kind.word = true := by
  cases kind <;> decide

theorem Kind.readsAs_word (kind : Kind) : ReadsAs false kind.word .name := by
  have hword : IsWord kind.word := by
    cases kind <;> decide
  intro rest hrest
  exact piecesFrom?_word hword hrest.endsWord

theorem FunctionName.not_isNodeType (f : FunctionName) : isNodeType f.name.text = false := by
  rw [Bool.eq_false_iff]
  intro h
  have hmem := List.contains_iff_mem.mp h
  have hkind (kind : Kind) : String.ofList f.name.text ≠ String.ofList kind.word := by
    intro heq
    exact f.notKind kind (String.ofList_inj.mp heq)
  have hnode := hkind .node
  have htext := hkind .text
  have hcomment := hkind .comment
  have hinstruction := hkind .instruction
  simp only [List.mem_cons, List.not_mem_nil, or_false] at hmem
  rcases hmem with hmem | hmem | hmem | hmem
  · exact hnode hmem
  · exact htext hmem
  · exact hcomment hmem
  · exact hinstruction hmem

/-- The test of a step announces a node-set. -/
theorem Test.stepping (test : Test) : Stepping test.tokens := by
  have hkind {inner : List (List Char)} (kind : Kind) (h : Bracketable inner) :
      Stepping (kind.word :: ['('] :: (inner ++ [[')']])) := by
    obtain ⟨ps, next, hlexes, hoperand⟩ := h
    exact ⟨_, .cons kind.readsAs_word hlexes.parens,
      located_cons (hoperand.group rfl rfl (by simp)) (.inr ⟨rfl, .inl kind.isNodeType_word⟩),
      List.cons_ne_nil _ _⟩
  cases test with
  | any =>
    have hread : ReadsAs false ['*'] .mark := readsAs_char (by decide) fun _ => rfl
    exact ⟨_, .single hread rfl, located_cons .nil (.inl rfl), List.cons_ne_nil _ _⟩
  | anyWith p =>
    exact ⟨_, .single (readsAs_anyWith p) rfl, located_cons .nil (.inr ⟨rfl, .inr rfl⟩),
      List.cons_ne_nil _ _⟩
  | named name =>
    exact ⟨_, .single (readsAs_name name) rfl, located_cons .nil (.inr ⟨rfl, .inr rfl⟩),
      List.cons_ne_nil _ _⟩
  | kind kind => exact hkind kind ⟨[], false, .nil, .nil⟩
  | instruction target =>
    have hliteral : Shown 0 .string false [target.text] :=
      shown_single (readsAs_literal target) (.inl rfl)
    exact hkind .instruction hliteral.bracketable

/-- The axis of a step goes before its test. -/
theorem AxisSpecifier.stepping (axis : AxisSpecifier) (h : Stepping tokens) :
    Stepping (axis.tokens ++ tokens) := by
  obtain ⟨ps, hlexes, hlocated, hne⟩ := h
  cases axis with
  | implied => exact ⟨ps, hlexes, hlocated, hne⟩
  | sign =>
    have hread : ReadsAs false ['@'] .mark := readsAs_char (by decide) fun _ => rfl
    exact ⟨_, .cons hread hlexes, located_cons hlocated.operand (.inl rfl), List.cons_ne_nil _ _⟩
  | named name axis known =>
    have hnames : ∀ entry ∈ Axis.names, IsWord entry.1.toList ∧
      wordShape false entry.1.toList = .name := by decide
    obtain ⟨hword, hshape⟩ := hnames _ known
    have hname : ReadsAs false name.toList .name := by
      intro rest hrest
      exact piecesFrom?_word hword hrest.endsWord
    have hcolons : ReadsAs true [':', ':'] .mark :=
      readsAs_of_shape (by decide) fun _ _ => by simp [shapeAt?]
    exact ⟨_, .cons hname (.cons hcolons hlexes),
      located_cons (hlocated.operand.cons (.inl rfl)) (.inr ⟨rfl, .inr (isGroup_of_ne (by simp))⟩),
      List.cons_ne_nil _ _⟩

end Tree

/-- Predicates go behind a test. -/
theorem Stepping.filtered (h : Stepping tokens) (hlater : Filtering later) :
    Stepping (tokens ++ later) := by
  obtain ⟨ps, hlexes, hlocated, hne⟩ := h
  obtain ⟨qs, hlater, hqs, rfl | ⟨rest, rfl⟩⟩ := hlater
  · refine ⟨ps ++ [], hlexes.append hlater, ?_, by simpa using hne⟩
    rwa [List.append_nil]
  · exact ⟨_, hlexes.append hlater, located_append hlocated.operand hne hqs,
      List.append_ne_nil_of_left_ne_nil hne _⟩

/-! ## Expressions -/

namespace Tree

/-- What is proved of the tokens of an expression. -/
def Expr.IsShown (e : Expr) : Prop :=
  ∀ ahead, (ahead = true → e.isRoot = false) → Shown e.level e.type ahead (e.tokens true ahead)

theorem Expr.IsShown.bracketable {e : Expr} (h : e.IsShown) : Bracketable (e.tokens true false) :=
  (h false nofun).bracketable

/-- With the parentheses that it needs, an expression is an operand of the level of its place. -/
theorem Expr.IsShown.enclose {e : Expr} (h : e.IsShown) {ahead ahead' : Bool}
    (hahead : ahead = true → ahead' = true) :
    Shown k e.type ahead (Tree.enclose (e.needsParens k ahead') (e.tokens true) ahead) := by
  cases hneeds : e.needsParens k ahead' with
  | true => exact (h false nofun).parens
  | false =>
    rw [needsParens, Bool.or_eq_false_iff, decide_eq_false_iff_not, Nat.not_lt] at hneeds
    obtain ⟨hle, hroot⟩ := hneeds
    refine (h ahead fun hstep => ?_).weaken hle fun h => h
    rwa [hahead hstep, Bool.true_and] at hroot

mutual

theorem Expr.isShown : (e : Expr) → e.IsShown
  | .binary _ left right, _, _ =>
    shown_binary rfl (left.isShown.enclose fun h => h) (right.isShown.enclose fun h => h)
  | .negate operand, _, _ => shown_negate (operand.isShown.enclose fun h => h)
  | .literal value, _, _ => shown_single (readsAs_literal value) (.inl rfl)
  | .number value, _, _ => shown_single (readsAs_numeral value) (.inr (.inl rfl))
  | .variable name, _, _ => shown_single (readsAs_variable name) (.inr (.inr rfl))
  | .call function arguments, _, _ =>
    shown_call (readsAs_name function.name) function.not_isNodeType
      (bracketable_arguments arguments)
  | .parens inner, _, _ => (inner.isShown false nofun).parens
  | .filter base predicate, _, _ =>
    shown_filter (base.isShown.enclose fun h => h) predicate.isShown.bracketable
  | .root, true, hroot => nomatch hroot rfl
  | .root, false, _ => shown_root
  | .relative step, _, _ => step.stepping.shown
  | .absolute slash step, _, _ => shown_absolute slash step.stepping
  | .further base slash step, _, _ =>
    shown_further slash (base.isShown.enclose nofun) step.stepping

theorem Step.stepping : (step : Step) → Stepping (step.tokens true)
  | .self => stepping_point
  | .parent => stepping_points
  | .located axis test predicates => by
    rw [Step.tokens, List.append_assoc]
    exact axis.stepping (test.stepping.filtered (filtering_predicates predicates))

theorem bracketable_arguments :
    (arguments : List Expr) → Bracketable (argumentTokens true arguments)
  | [] => ⟨[], false, .nil, .nil⟩
  | e :: rest => by
    obtain ⟨ps, middle, hlexes, hoperand⟩ := e.isShown.bracketable
    obtain ⟨qs, next, hlater, hqs, htext⟩ := lexesAs_later middle rest
    exact ⟨ps ++ qs, next, hlexes.append hlater, hoperand.append hqs htext⟩

/-- Each argument behind the first one has a comma before it. -/
theorem lexesAs_later : (b : Bool) → (arguments : List Expr) → ∃ ps next,
    LexesAs b (laterTokens true arguments) ps next ∧ Operand 0 ps ∧
      ∀ p ∈ ps.head?, p.text ≠ []
  | b, [] => ⟨[], b, .nil, .nil, nofun⟩
  | _, e :: rest => by
    obtain ⟨ps, middle, hlexes, hoperand⟩ := e.isShown.bracketable
    obtain ⟨qs, next, hlater, hqs, htext⟩ := lexesAs_later middle rest
    exact ⟨⟨.mark, [',']⟩ :: (ps ++ qs), next, .cons readsAs_comma (hlexes.append hlater),
      (hoperand.append hqs htext).cons (.inl rfl), by simp⟩

theorem filtering_predicates :
    (predicates : List Expr) → Filtering (predicateTokens true predicates)
  | [] => ⟨[], .nil, .nil, .inl rfl⟩
  | e :: rest => filtering_cons e.isShown.bracketable (filtering_predicates rest)

end

end Tree

/-! ## Texts -/

/-- The type announced for the text of an expression is that of its outermost construct. A slash
that stands alone is in parentheses where it is followed by an operator that is written like a test.
-/
theorem announcedType_of_spaced (e : Tree.Expr) {text : String}
    (h : Spaced (e.tokens true false) text.toList) : announcedType text = e.type := by
  obtain ⟨ps, next, hshown⟩ := e.isShown false nofun
  have hpieces := hshown.lexes.piecesFrom?_eq h
  rw [announcedType, ofText?, hpieces]
  exact hshown.announces

theorem announcedType_of_spaced_enclosed :
    let step (c : Char) (hc : isNameStart c = true) (hc' : isNameChar c = true) : Tree.Expr :=
      .relative (.located .implied
        (.named ⟨none, ⟨[c], hc, List.forall_mem_singleton.mpr hc'⟩⟩) [])
    let e : Tree.Expr := .binary .and
      (.binary .union (step 'a' (by decide) (by decide)) .root) (step 'b' (by decide) (by decide))
    Spaced (e.tokens true false) "a | ( / ) and b".toList ∧
      announcedType "a | ( / ) and b" = .boolean := by
  intro step e
  have hspaced : Spaced (e.tokens true false) "a | ( / ) and b".toList :=
    spaced_intercalate (e.tokens true false)
  exact ⟨hspaced, announcedType_of_spaced e hspaced⟩

/-- Where only a slash that is itself the left operand is in parentheses, the operator behind one
that ends the left operand is read as a step. -/
theorem announcedType_of_bare_slash : ¬ ∀ (e : Tree.Expr) (text : String),
    Spaced (e.tokens false false) text.toList → announcedType text = e.type := by
  let step (c : Char) (hc : isNameStart c = true) (hc' : isNameChar c = true) : Tree.Expr :=
    .relative (.located .implied
      (.named ⟨none, ⟨[c], hc, List.forall_mem_singleton.mpr hc'⟩⟩) [])
  let e : Tree.Expr := .binary .and
    (.binary .union (step 'a' (by decide) (by decide)) .root) (step 'b' (by decide) (by decide))
  intro hclaim
  have hspaced : Spaced (e.tokens false false) "a | / and b".toList :=
    spaced_intercalate (e.tokens false false)
  have hnodes : announcedType "a | / and b" = .nodeSet := by decide +kernel
  rw [hclaim e _ hspaced] at hnodes
  cases hnodes

end XPathBench.XPath

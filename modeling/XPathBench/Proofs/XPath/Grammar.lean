import XPathBench.Proofs.XPath.Expressions

/-!
# Following the grammar

Each rule of the grammar finds an expression whose type its pieces announce, and takes nothing where
it finds none.

* `Answers`: what a rule finds where an operand may start
* `answers_chain`, `answers_signed`, `answers_path`: the rules, given the one for expressions
* `answers_expression`, `Expr.sound_of_parse`: expressions
-/

namespace XPathBench.XPath.Parser

open Outline

variable {α : Type} {k : Nat} {expression operand : Parser (Option Expr)}

/-- Where an operand may start, the rule finds what its pieces tell, and the query may go on behind
it. -/
abbrev Answers (rule : Parser (Option α)) (found : α → List Piece → Prop) : Prop :=
  Follows Starts rule (Finds Starts Continues found)

/-- The rule finds expressions of a level. -/
abbrev Parses (k : Nat) (rule : Parser (Option Expr)) : Prop :=
  Answers rule fun e ps => Sound k ps e

/-! ## Operators -/

/-- An operator and what stands behind it. -/
def IsTail (k : Nat) (tail : BinaryOp × Expr) (ps : List Piece) : Prop :=
  ∃ shown text qs, text ≠ [] ∧ ps = ⟨.operator shown, text⟩ :: qs ∧
    (shown = tail.1.kind ∨ shown = .negation ∧ tail.1.kind = .additive) ∧
      tail.1.kind.precedence = k ∧ Sound (k + 1) qs tail.2

theorem sound_foldl {others : List (BinaryOp × Expr)} {ps qs : List Piece} {first : Expr}
    (h : Sound k ps first) (hothers : Each (IsTail k) others qs) :
    Sound k (ps ++ qs) (others.foldl (fun left (op, right) => .binary op left right) first) := by
  induction hothers generalizing ps first with
  | nil =>
    rw [List.append_nil]
    exact h
  | cons htail _ ih =>
    obtain ⟨shown, text, qs, htext, rfl, hshown, hop, hright⟩ := htail
    rw [← List.append_assoc]
    exact ih (sound_binary h hright hop hshown htext)

/-- The tokens of a level are operators that bind as it tells. -/
def Operates (k : Nat) (operator : Token → Option BinaryOp) : Prop :=
  ∀ token op, operator token = some op →
    token.operator? = some op.kind ∧ op.kind.precedence = k

theorem follows_operator {operator : Token → Option BinaryOp} (hoperator : Operates k operator) :
    Follows Continues (next? operator) (Finds Continues Starts fun op ps =>
      ∃ shown text, text ≠ [] ∧ ps = [⟨.operator shown, text⟩] ∧
        (shown = op.kind ∨ shown = .negation ∧ op.kind = .additive) ∧
          op.kind.precedence = k) := by
  refine finds_next fun token ps rest op hcells hop => ?_
  obtain ⟨hkind, hlevel⟩ := hoperator token op hop
  obtain ⟨⟨b, hspells⟩, hspelt, hplain⟩ := hcells.inv
  obtain ⟨shown, text, htext, hps, hshown⟩ := hspells.operator hkind
  obtain ⟨hends, hfunction⟩ := Token.endsOperand_of_operator hkind
  exact ⟨hspells.ne_nil, ⟨shown, text, htext, hps, hshown, hlevel⟩,
    .of_spelt hspelt hends (plain_of_cons hplain hfunction)⟩

theorem follows_tail {operator : Token → Option BinaryOp} (hoperator : Operates k operator)
    (hoperand : Parses (k + 1) operand) : Follows Continues (do
      match ← next? operator with
      | some op => return some (op, ← require .rightOperandMissing operand)
      | none => return none) (Finds Continues Continues (IsTail k)) := by
  refine (follows_operator hoperator).bindFound (follows_pure fun _ hcells => ⟨rfl, hcells⟩)
    fun op ps hop => ?_
  obtain ⟨shown, text, htext, rfl, hshown, hlevel⟩ := hop
  refine hoperand.require.bind fun right qs => follows_pure fun cells hcells => ?_
  rw [List.append_nil]
  exact ⟨⟨shown, text, qs, htext, rfl, hshown, hlevel, hcells.1⟩, hcells.2⟩

theorem answers_chain {operator : Token → Option BinaryOp} (hoperator : Operates k operator)
    (hoperand : Parses (k + 1) operand) : Parses k (chain operator operand) := by
  refine hoperand.bindFound (follows_pure fun _ hcells => ⟨rfl, hcells⟩) fun first ps hfirst => ?_
  refine (follows_manyLeft (follows_tail hoperator hoperand)).bind fun others qs =>
    follows_pure fun cells hcells => ?_
  rw [List.append_nil]
  exact ⟨sound_foldl (hfirst.weaken (Nat.le_succ k)) hcells.1, hcells.2⟩

theorem follows_minus : Follows Starts (next? fun | .minus => some () | _ => none)
    (Finds Starts Starts fun _ ps => ps = [⟨.operator .negation, ['-']⟩]) := by
  refine finds_next fun token ps rest v hcells hv => ?_
  cases token with
  | minus =>
    obtain ⟨hspells, hspelt, hplain⟩ := hcells.inv rfl
    exact ⟨hspells.ne_nil, hspells, .of_spelt hspelt rfl hplain⟩
  | _ => cases hv

theorem answers_signed {union : Parser (Option Expr)} (hunion : Parses 8 union) (signs : Nat) :
    Parses 7 (signed union signs) := by
  induction signs with
  | zero => exact follows_pure fun _ hcells => ⟨rfl, hcells⟩
  | succ signs ih =>
    refine hunion.bindFound ?_ fun e ps he => follows_return fun _ hcells =>
      ⟨he.weaken (by omega), hcells⟩
    refine follows_minus.bindFound (follows_pure fun _ hcells => ⟨rfl, hcells⟩) fun _ ps hps => ?_
    subst hps
    refine ih.require.bind fun e qs => follows_pure fun cells hcells => ?_
    rw [List.append_nil]
    exact ⟨sound_negate hcells.1, hcells.2⟩

/-! ## Paths -/

theorem follows_leftBracket : Follows Continues (next? fun | .leftBracket => some () | _ => none)
    (Finds Continues Starts fun _ ps => ps = [⟨.opening, ['[']⟩]) := by
  refine finds_next fun token ps rest v hcells hv => ?_
  cases token with
  | leftBracket =>
    obtain ⟨⟨b, hspells⟩, hspelt, hplain⟩ := hcells.inv
    exact ⟨hspells.ne_nil, hspells, .of_spelt hspelt rfl hplain⟩
  | _ => cases hv

theorem follows_rightBracket : Follows Continues (take fun | .rightBracket => true | _ => false)
    fun _ ps rest => ps = [⟨.closing, [']']⟩] ∧ Continues rest := by
  refine follows_take fun token ps rest hcells hv => ?_
  cases token with
  | rightBracket =>
    obtain ⟨⟨b, hspells⟩, hspelt, hplain⟩ := hcells.inv
    exact ⟨hspells.ne_nil, hspells, .of_spelt hspelt nofun hplain⟩
  | _ => cases hv

theorem follows_predicate (h : Parses 1 expression) :
    Follows Continues (predicate expression)
      (Finds Continues Continues fun _ => IsPredicate) := by
  refine follows_leftBracket.bindFound (follows_pure fun _ hcells => ⟨rfl, hcells⟩)
    fun _ ps hps => ?_
  subst hps
  refine h.require.bindTold fun e inner he => ?_
  refine follows_rightBracket.bind fun _ qs => follows_pure fun cells hcells => ?_
  obtain ⟨rfl, hcells⟩ := hcells
  exact ⟨⟨inner, he.operand.weaken (Nat.zero_le 1), rfl⟩, hcells⟩

/-- An axis has a test behind it. -/
theorem follows_axis : Follows Starts (next? fun | .axis value => some value | _ => none)
    (Finds Starts (fun cells => Starts cells ∧ testAhead (cells.map Prod.fst) = true)
      fun value ps => (Token.axis value).Spells false ps) := by
  refine finds_next fun token ps rest v hcells hv => ?_
  cases token with
  | axis value =>
    cases hv
    obtain ⟨hspells, hspelt, hplain⟩ := hcells.inv rfl
    obtain ⟨htest, hplain⟩ := Bool.and_eq_true_iff.mp hplain
    exact ⟨hspells.ne_nil, hspells, .of_spelt hspelt rfl hplain, htest⟩
  | _ => cases hv

/-- A test, or the knowledge that there is none. -/
theorem follows_test {extra : List Cell → Prop} :
    Follows (fun cells => Starts cells ∧ extra cells) (next? fun
      | .nodeTest value => some (Test.node value)
      | .nameTest value => some (Test.name value)
      | _ => none)
    fun found ps rest => match found with
      | none => ps = [] ∧ (Starts rest ∧ extra rest) ∧ testAhead (rest.map Prod.fst) = false
      | some _ => (∃ token : Token, token.Spells false ps ∧ testAhead [token] = true) ∧
        Continues rest := by
  refine follows_next (fun cells hcells hnone => ⟨rfl, hcells, ?_⟩)
    fun token ps rest v hcells hv => ?_
  · cases cells with
    | nil => rfl
    | cons cell rest =>
      obtain ⟨token, ps⟩ := cell
      have hvalue := hnone (token, ps) rfl
      cases token with
      | nodeTest value | nameTest value => cases hvalue
      | _ => rfl
  · cases token with
    | nodeTest value | nameTest value =>
      cases hv
      obtain ⟨hspells, hspelt, hplain⟩ := hcells.1.inv rfl
      exact ⟨hspells.ne_nil, ⟨_, hspells, rfl⟩, .of_spelt hspelt nofun hplain⟩
    | _ => cases hv

/-- Behind its axis a step takes nothing if there is no test. -/
theorem follows_tested (h : Parses 1 expression) {extra : List Cell → Prop} {value : Axis} :
    Follows (fun cells => Starts cells ∧ extra cells) (do
      let test ← next? fun
        | .nodeTest value => some (Test.node value)
        | .nameTest value => some (Test.name value)
        | _ => none
      match test with
      | none => return none
      | some test => return some (Step.mk value test (← manyLeft (predicate expression))))
    fun found ps rest => match found with
      | none => ps = [] ∧ (Starts rest ∧ extra rest) ∧ testAhead (rest.map Prod.fst) = false
      | some _ => Located 10 ps ∧ Continues rest := by
  refine follows_test.bind fun test ps => ?_
  cases test with
  | none =>
    refine follows_pure fun cells hcells => ?_
    rw [List.append_nil]
    exact hcells
  | some test =>
    refine follows_of (fun _ hcells => hcells.1) fun ⟨token, hspells, htoken⟩ => ?_
    refine ((follows_manyLeft (follows_predicate h)).weaken fun _ hcells => hcells.2).bind
      fun predicates qs => follows_pure fun cells hcells => ?_
    obtain ⟨hq, hqs⟩ := predicates_cases (k := 10) hcells.1 fun _ _ h => h
    rw [List.append_nil]
    exact ⟨located_test hspells htoken hq (hqs.imp_left And.right), hcells.2⟩

theorem answers_step (h : Parses 1 expression) :
    Answers (step expression) fun _ ps => Located 10 ps := by
  refine follows_axis.bindFound ?_ fun value ps haxis => ?_
  · refine ((@follows_tested _ h (fun _ => True) .child).weaken fun cells hcells =>
      ⟨hcells, trivial⟩).mono fun found ps rest hfound => ?_
    cases found with
    | none => exact ⟨hfound.1, hfound.2.1.1⟩
    | some found => exact hfound
  · refine (follows_tested h).mono fun found qs rest hfound => ?_
    cases found with
    | none =>
      obtain ⟨_, ⟨_, htest⟩, hnone⟩ := hfound
      rw [hnone] at htest
      cases htest
    | some found => exact ⟨located_axis haxis hfound.1.operand, hfound.2⟩

/-- A slash may have steps behind it, or stand alone. -/
theorem follows_slash {before : List Cell → Prop}
    (hbefore : ∀ ps rest, before ((.slash, ps) :: rest) →
      (∃ b, Token.slash.Spells b ps) ∧ Spelt (some .slash) rest ∧
        plain (.slash :: rest.map Prod.fst) = true) :
    Follows before slash (Finds before (fun cells => Starts cells ∧ Continues cells) fun _ ps =>
      ∃ text, text ≠ [] ∧ ps = [⟨.operator .slash, text⟩]) := by
  refine finds_next fun token ps rest v hcells hv => ?_
  cases token with
  | slash =>
    obtain ⟨⟨b, hspells⟩, hspelt, hplain⟩ := hbefore ps rest hcells
    obtain ⟨shown, text, htext, hps, rfl | ⟨_, hkind⟩⟩ := hspells.operator rfl
    · exact ⟨hspells.ne_nil, ⟨text, htext, hps⟩, .of_spelt hspelt rfl hplain,
        .of_spelt hspelt nofun hplain⟩
    · cases hkind
  | _ => cases hv

theorem located_steps {steps : List Step} {ps qs : List Piece} (h : Located 9 ps)
    (hsteps : Each (fun _ ps => ∃ text qs, text ≠ [] ∧ ps = ⟨.operator .slash, text⟩ :: qs ∧
      Operand 9 qs) steps qs) : Located 9 (ps ++ qs) := by
  induction hsteps generalizing ps with
  | nil =>
    rw [List.append_nil]
    exact h
  | cons hstep _ ih =>
    obtain ⟨text, qs, htext, rfl, hqs⟩ := hstep
    rw [← List.append_assoc]
    exact ih (located_slash h.operand hqs htext)

theorem follows_furtherStep (h : Parses 1 expression) : Follows Continues (do
      match ← slash with
      | some _ => return some (← require .trailingSlash (step expression))
      | none => return none)
    (Finds Continues Continues fun _ ps => ∃ text qs, text ≠ [] ∧
      ps = ⟨.operator .slash, text⟩ :: qs ∧ Operand 9 qs) := by
  refine (follows_slash fun _ _ hcells => hcells.inv).bindFound
    (follows_pure fun _ hcells => ⟨rfl, hcells⟩) fun _ ps hps => ?_
  obtain ⟨text, htext, rfl⟩ := hps
  refine ((answers_step h).require.weaken fun _ hcells => hcells.1).bind fun found qs =>
    follows_pure fun cells hcells => ?_
  rw [List.append_nil]
  exact ⟨⟨text, qs, htext, rfl, hcells.1.operand.weaken (by omega)⟩, hcells.2⟩

theorem answers_relativePath (h : Parses 1 expression) :
    Answers (relativePath expression) fun _ ps => Located 9 ps := by
  refine (answers_step h).bindFound (follows_pure fun _ hcells => ⟨rfl, hcells⟩)
    fun first ps hfirst => ?_
  refine (follows_manyLeft (follows_furtherStep h)).bind fun others qs =>
    follows_pure fun cells hcells => ?_
  rw [List.append_nil]
  exact ⟨located_steps (hfirst.weaken (by omega)) hcells.1, hcells.2⟩

theorem answers_absolutePath (h : Parses 1 expression) :
    Parses 9 (absolutePath expression) := by
  refine (follows_slash fun _ _ hcells => ?_).bindFound
    (follows_pure fun _ hcells => ⟨rfl, hcells⟩) fun _ ps hps => ?_
  · obtain ⟨hspells, hrest⟩ := hcells.inv rfl
    exact ⟨⟨_, hspells⟩, hrest⟩
  obtain ⟨text, htext, rfl⟩ := hps
  refine (answers_relativePath h).frame.bindFound ?_ fun steps qs hsteps => ?_
  · refine follows_pure fun cells hcells => ?_
    exact ⟨(located_slash .nil .nil htext).sound Expr.yields_root, hcells.2⟩
  · refine follows_pure fun cells hcells => ?_
    rw [List.append_nil]
    exact ⟨(located_slash .nil hsteps.operand htext).sound Expr.yields_path, hcells⟩

/-! ## Operands without slash -/

theorem follows_rightParen : Follows Continues (take fun | .rightParen => true | _ => false)
    fun _ ps rest => ps = [⟨.closing, [')']⟩] ∧ Continues rest := by
  refine follows_take fun token ps rest hcells hv => ?_
  cases token with
  | rightParen =>
    obtain ⟨⟨b, hspells⟩, hspelt, hplain⟩ := hcells.inv
    exact ⟨hspells.ne_nil, hspells, .of_spelt hspelt nofun hplain⟩
  | _ => cases hv

theorem follows_openParen :
    Follows (fun cells => Starts cells ∧ parenAhead (cells.map Prod.fst) = false)
      (take fun | .rightParen => true | _ => false) fun _ _ _ => False := by
  refine follows_take fun token ps rest hcells hv => ?_
  cases token with
  | rightParen => cases hcells.2
  | _ => cases hv

theorem follows_leftParen : Follows Starts (next? fun | .leftParen => some () | _ => none)
    (Finds Starts (fun cells => Starts cells ∧ parenAhead (cells.map Prod.fst) = false)
      fun _ ps => ps = [⟨.opening, ['(']⟩]) := by
  refine finds_next fun token ps rest v hcells hv => ?_
  cases token with
  | leftParen =>
    obtain ⟨hspells, hspelt, hplain⟩ := hcells.inv rfl
    obtain ⟨hparen, hplain⟩ := Bool.and_eq_true_iff.mp hplain
    exact ⟨hspells.ne_nil, hspells, .of_spelt hspelt rfl hplain, Bool.not_eq_true' _ ▸ hparen⟩
  | _ => cases hv

/-- Parentheses hold something. -/
theorem answers_group (h : Parses 1 expression) :
    Answers (group expression) fun e ps => Primary ps e := by
  refine follows_leftParen.bindFound (follows_pure fun _ hcells => ⟨rfl, hcells⟩)
    fun _ ps hps => ?_
  subst hps
  refine h.frame.bindFound (follows_openParen.bind fun _ _ => follows_of (fun _ h => h) False.elim)
    fun e inner he => ?_
  refine follows_rightParen.bind fun _ qs => follows_pure fun cells hcells => ?_
  obtain ⟨rfl, hcells⟩ := hcells
  exact ⟨.group (he.weaken (Nat.zero_le 1)), hcells⟩

theorem operand_arguments {others : List Expr} {ps qs : List Piece} (h : Operand 0 ps)
    (hothers : Each (fun _ ps => ∃ qs, ps = ⟨.mark, [',']⟩ :: qs ∧ Operand 0 qs) others qs) :
    Operand 0 (ps ++ qs) := by
  induction hothers generalizing ps with
  | nil =>
    rw [List.append_nil]
    exact h
  | cons hother _ ih =>
    obtain ⟨qs, rfl, hqs⟩ := hother
    rw [← List.append_assoc]
    exact ih (h.append (hqs.cons (.inl rfl)) (by simp))

/-- Cells behind the name of a function. -/
def Called (cells : List Cell) : Prop :=
  ∃ name, Spelt (some (.function name)) cells ∧
    plain (.function name :: cells.map Prod.fst) = true

theorem follows_callParen :
    Follows Called (take fun | .leftParen => true | _ => false) fun _ ps rest =>
      ps = [⟨.opening, ['(']⟩] ∧ Starts rest ∧ Continues rest := by
  refine follows_take fun token ps rest hcells hv => ?_
  cases token with
  | leftParen =>
    obtain ⟨name, ⟨_, hword⟩ | ⟨hspells, hspelt⟩, hplain⟩ := hcells
    · cases hword
    · exact ⟨hspells.ne_nil, hspells, .of_spelt hspelt rfl hplain, .of_spelt hspelt nofun hplain⟩
  | _ => cases hv

theorem follows_comma : Follows Continues (next? fun | .comma => some () | _ => none)
    (Finds Continues Starts fun _ ps => ps = [⟨.mark, [',']⟩]) := by
  refine finds_next fun token ps rest v hcells hv => ?_
  cases token with
  | comma =>
    obtain ⟨⟨b, hspells⟩, hspelt, hplain⟩ := hcells.inv
    exact ⟨hspells.ne_nil, hspells, .of_spelt hspelt rfl hplain⟩
  | _ => cases hv

theorem follows_furtherArgument (h : Parses 1 expression) : Follows Continues (do
      match ← next? (fun | .comma => some () | _ => none) with
      | some _ => return some (← require .argumentMissing expression)
      | none => return none)
    (Finds Continues Continues fun _ ps => ∃ qs, ps = ⟨.mark, [',']⟩ :: qs ∧ Operand 0 qs) := by
  refine follows_comma.bindFound (follows_pure fun _ hcells => ⟨rfl, hcells⟩) fun _ ps hps => ?_
  subst hps
  refine h.require.bind fun e qs => follows_pure fun cells hcells => ?_
  rw [List.append_nil]
  exact ⟨⟨qs, rfl, hcells.1.operand.weaken (Nat.zero_le 1)⟩, hcells.2⟩

theorem follows_closing (found : List Expr) {inner : List Piece} (hinner : Operand 0 inner) :
    Follows Continues (do
      take fun | .rightParen => true | _ => false
      return found) fun _ ps rest => (∃ held, Operand 0 held ∧
        [⟨.opening, ['(']⟩] ++ (inner ++ ps) =
          ⟨.opening, ['(']⟩ :: (held ++ [⟨.closing, [')']⟩])) ∧ Continues rest := by
  refine follows_rightParen.bind fun _ qs => follows_pure fun cells hcells => ?_
  obtain ⟨rfl, hcells⟩ := hcells
  exact ⟨⟨inner, hinner, rfl⟩, hcells⟩

/-- The parentheses of a call may hold nothing. -/
theorem follows_arguments (h : Parses 1 expression) :
    Follows Called (arguments expression) fun _ ps rest => (∃ inner, Operand 0 inner ∧
      ps = ⟨.opening, ['(']⟩ :: (inner ++ [⟨.closing, [')']⟩])) ∧ Continues rest := by
  have hfirst : Follows (fun cells => Starts cells ∧ Continues cells) expression
      (Finds (fun cells => Starts cells ∧ Continues cells) Continues fun e ps => Sound 1 ps e) :=
    h.frame
  refine follows_callParen.bindTold fun _ ps hps => ?_
  subst hps
  refine hfirst.bindFound ?_ fun first ps hfirst => ?_
  · exact (follows_closing [] .nil).weaken fun _ hcells => hcells.2
  · refine (follows_manyLeft (follows_furtherArgument h)).bindTold fun others qs hothers => ?_
    have hinner := operand_arguments (hfirst.operand.weaken (Nat.zero_le 1)) hothers
    refine (follows_closing (first :: others) hinner).mono fun _ rs rest hlast => ?_
    rw [List.append_assoc] at hlast
    exact hlast

theorem follows_functionName : Follows Starts (next? fun | .function name => some name | _ => none)
    (Finds Starts Called fun name ps => ps = [⟨.name, name.text.toList⟩]) := by
  refine finds_next fun token ps rest v hcells hv => ?_
  cases token with
  | function name =>
    cases hv
    obtain ⟨hspells, hbehind⟩ := hcells.inv rfl
    exact ⟨hspells.ne_nil, hspells, _, hbehind⟩
  | _ => cases hv

theorem answers_call (h : Parses 1 expression) :
    Answers (call expression) fun e ps => Primary ps e := by
  refine follows_functionName.bindFound (follows_pure fun _ hcells => ⟨rfl, hcells⟩)
    fun name ps hps => ?_
  subst hps
  refine (follows_arguments h).bind fun found ps => follows_pure fun cells hcells => ?_
  obtain ⟨⟨inner, hinner, rfl⟩, hcells⟩ := hcells
  rw [List.append_nil]
  exact ⟨.call hinner, hcells⟩

theorem answers_variable :
    Answers (next? fun | .variable name => some (Expr.variable name) | _ => none)
      fun e ps => Primary ps e := by
  refine finds_next fun token ps rest v hcells hv => ?_
  cases token with
  | «variable» name =>
    cases hv
    obtain ⟨⟨text, rfl⟩, hspelt, hplain⟩ := hcells.inv rfl
    exact ⟨by simp, .bound, .of_spelt hspelt nofun hplain⟩
  | _ => cases hv

theorem answers_literal :
    Answers (next? fun | .literal value => some (Expr.literal value) | _ => none)
      fun e ps => Primary ps e := by
  refine finds_next fun token ps rest v hcells hv => ?_
  cases token with
  | literal value =>
    cases hv
    obtain ⟨⟨text, rfl⟩, hspelt, hplain⟩ := hcells.inv rfl
    exact ⟨by simp, .literal, .of_spelt hspelt nofun hplain⟩
  | _ => cases hv

theorem answers_number :
    Answers (next? fun | .number value => some (Expr.number value) | _ => none)
      fun e ps => Primary ps e := by
  refine finds_next fun token ps rest v hcells hv => ?_
  cases token with
  | number value =>
    cases hv
    obtain ⟨⟨text, rfl⟩, hspelt, hplain⟩ := hcells.inv rfl
    exact ⟨by simp, .number, .of_spelt hspelt nofun hplain⟩
  | _ => cases hv

theorem answers_primary (h : Parses 1 expression) :
    Answers (primary expression) fun e ps => Primary ps e := by
  refine follows_firstOf fun rule hrule => ?_
  simp only [List.mem_cons, List.not_mem_nil, or_false] at hrule
  rcases hrule with rfl | rfl | rfl | rfl | rfl
  · exact answers_variable
  · exact answers_group h
  · exact answers_literal
  · exact answers_number
  · exact answers_call h

theorem answers_filtered (h : Parses 1 expression) : Parses 9 (filtered expression) := by
  refine (answers_primary h).bindFound (follows_pure fun _ hcells => ⟨rfl, hcells⟩)
    fun e ps he => ?_
  refine (follows_manyLeft (follows_predicate h)).bindTold fun predicates qs hpredicates => ?_
  have hsound := (sound_filtered he hpredicates).weaken (j := 9) (by omega)
  refine (follows_slash fun _ _ hcells => hcells.inv).bindFound ?_ fun _ rs hrs => ?_
  · refine follows_pure fun cells hcells => ?_
    rw [List.append_nil]
    exact ⟨hsound, hcells⟩
  · obtain ⟨text, htext, rfl⟩ := hrs
    refine ((answers_relativePath h).require.weaken fun _ hcells => hcells.1).bind fun steps rs =>
      follows_pure fun cells hcells => ?_
    have hpath := located_slash hsound.operand hcells.1.operand htext
    rw [List.append_nil, ← List.append_assoc]
    exact ⟨hpath.sound Expr.yields_path, hcells.2⟩

theorem answers_path (h : Parses 1 expression) : Parses 9 (path expression) := by
  have hrelative : Parses 9 ((·.map (.path .contextNode)) <$> relativePath expression) := by
    refine ((answers_relativePath h).mono fun found ps rest hfound => ?_).map
    cases found with
    | none => exact hfound
    | some steps => exact ⟨hfound.1.sound Expr.yields_path, hfound.2⟩
  refine follows_firstOf fun rule hrule => ?_
  simp only [List.mem_cons, List.not_mem_nil, or_false] at hrule
  rcases hrule with rfl | rfl | rfl
  · exact hrelative
  · exact answers_absolutePath h
  · exact answers_filtered h

/-! ## Expressions -/

theorem answers_foldr {operators : List (Token → Option BinaryOp)}
    (h : Parses (k + operators.length) operand)
    (hoperators : ∀ entry ∈ operators.zipIdx k, Operates entry.2 entry.1) :
    Parses k (operators.foldr chain operand) := by
  induction operators generalizing k with
  | nil => exact h
  | cons operator operators ih =>
    rw [List.zipIdx_cons, List.forall_mem_cons] at hoperators
    refine answers_chain hoperators.1 (ih ?_ hoperators.2)
    rwa [Nat.add_assoc, Nat.add_comm 1]

theorem operates_levels : ∀ entry ∈ levels.zipIdx 1, Operates entry.2 entry.1 := by
  simp only [levels, List.zipIdx_cons, List.zipIdx_nil, List.forall_mem_cons]
  refine ⟨?_, ?_, ?_, ?_, ?_, ?_, nofun⟩
  all_goals
    intro token op hop
    cases token <;> cases hop <;> exact ⟨rfl, rfl⟩

theorem operates_union : Operates 8 fun | .pipe => some .union | _ => none := by
  intro token op hop
  cases token with
  | pipe =>
    cases hop
    exact ⟨rfl, rfl⟩
  | _ => cases hop

theorem answers_expressionTo (depth : Nat) : Parses 1 (expressionTo depth) := by
  induction depth with
  | zero => exact follows_pure fun _ hcells => ⟨rfl, hcells⟩
  | succ depth ih =>
    refine follows_get.bindTold fun s ps hps => ?_
    subst hps
    have hunion := answers_chain operates_union (answers_path ih)
    exact answers_foldr (answers_signed hunion _) operates_levels

theorem answers_expression : Parses 1 Parser.expression := by
  refine follows_get.bindTold fun s ps hps => ?_
  subst hps
  exact answers_expressionTo _

end Parser

/-- The tokens of a query that is an expression are cut to its end, and their pieces announce its
type. -/
theorem Expr.sound_of_parse {query : String} {e : Expr} {cells : List Cell}
    (hparse : Expr.parse query = .ok (some e))
    (htokens : (TokenStream.ofText query).tokens = cells.map Prod.fst) (hspelt : Spelt none cells)
    (hplain : plain (cells.map Prod.fst) = true) :
    (TokenStream.ofText query).error = none ∧ (∀ c ∈ cells, c.2 ≠ []) ∧
      Sound 1 (piecesOf cells) e := by
  have hrun := Expr.parse_eq_ok_iff.mp hparse
  have hstream : TokenStream.ofText query =
      ⟨cells.map Prod.fst, (TokenStream.ofText query).error⟩ := by rw [← htokens]
  rw [hstream] at hrun
  obtain ⟨used, rest, rfl, hleft, hused, hsound, _⟩ :=
    Parser.answers_expression cells _ _ _ ⟨none, rfl, hspelt, hplain⟩ hrun
  obtain ⟨hrest, herror⟩ := TokenStream.mk.inj hleft
  obtain rfl := List.map_eq_nil_iff.mp hrest.symm
  rw [List.append_nil]
  exact ⟨herror.symm, hused, hsound⟩

end XPathBench.XPath

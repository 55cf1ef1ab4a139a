import XPathBench.Proofs.Actions
import XPathBench.Proofs.XPath.Tokens
import XPathBench.XPath.Engine

/-!
# Queries without content

The parser may read a query to its end and find no expression in it: an axis without a test and an
empty pair of parentheses are taken, and denote nothing. What is read in this way is told exactly.

* `Void`: tokens that denote nothing
* `Passes`, `Skips`: what a rule takes where it answers with nothing
* `Expr.parse_eq_none_iff`: the queries in which nothing is found
* `Query.compile_eq_nothing_iff`: the queries that are reported as empty
-/

namespace XPathBench.XPath

/-- Tokens that denote nothing: perhaps an axis without a test, and behind it perhaps a pair of
parentheses around such tokens. -/
inductive Void : List Token → Prop where
  | bare (axis : Option Axis) : Void (axis.map Token.axis).toList
  | group (axis : Option Axis) {inside : List Token} (h : Void inside) :
      Void ((axis.map Token.axis).toList ++ .leftParen :: (inside ++ [.rightParen]))

namespace Parser

variable {α β : Type} {tokens : List Token} {error : Option LexicalError}

/-! ## What is taken where nothing is found -/

/-- Where the rule answers with nothing, the tokens that it takes are as told. -/
def Passes (rule : Parser (Option α)) (void : List Token → Prop) : Prop :=
  ∀ tokens error left, rule.run ⟨tokens, error⟩ = .ok (none, left) →
    ∃ used rest, tokens = used ++ rest ∧ left = ⟨rest, error⟩ ∧ void used

variable {rule : Parser (Option α)} {void void' : List Token → Prop}

theorem Passes.mono (h : Passes rule void) (hvoid : ∀ used, void used → void' used) :
    Passes rule void' := by
  intro tokens error left hrun
  obtain ⟨used, rest, htokens, hleft, hused⟩ := h tokens error left hrun
  exact ⟨used, rest, htokens, hleft, hvoid used hused⟩

theorem passes_none : Passes (return none : Parser (Option α)) (· = []) := by
  intro tokens error left hrun
  cases hrun
  exact ⟨[], tokens, rfl, rfl, rfl⟩

theorem passes_some {a : α} : Passes (return some a : Parser (Option α)) fun _ => False := by
  intro tokens error left hrun
  cases hrun

theorem passes_next {value : Token → Option α} : Passes (next? value) (· = []) := by
  intro tokens error left hrun
  obtain ⟨-, rfl, -⟩ | ⟨_, _, _, _, _, hsome, _⟩ := run_next hrun
  · exact ⟨[], tokens, rfl, rfl, rfl⟩
  · cases hsome

/-- A rule always finds something if what it ends with does. -/
theorem passes_bind_never {rule : Parser α} {next : α → Parser (Option β)}
    (h : ∀ a, Passes (next a) fun _ => False) : Passes (rule >>= next) fun _ => False := by
  intro tokens error left hrun
  rw [StateT.run_bind] at hrun
  obtain ⟨⟨a, middle⟩, -, hrun⟩ := bind_eq_ok.mp hrun
  obtain ⟨_, _, _, _, hfalse⟩ := h a middle.tokens middle.error left hrun
  exact hfalse.elim

/-- Two rules answer with nothing one after the other. -/
theorem Passes.bind {next : Option α → Parser (Option β)} (h : Passes rule void)
    (hnone : Passes (next none) void') (hsome : ∀ a, Passes (next (some a)) fun _ => False) :
    Passes (rule >>= next) fun used => ∃ front back, used = front ++ back ∧ void front ∧
      void' back := by
  intro tokens error left hrun
  rw [StateT.run_bind] at hrun
  obtain ⟨⟨found, middle⟩, hrule, hrun⟩ := bind_eq_ok.mp hrun
  cases found with
  | some a =>
    obtain ⟨_, _, _, _, hfalse⟩ := hsome a middle.tokens middle.error left hrun
    exact hfalse.elim
  | none =>
    obtain ⟨front, rest, rfl, rfl, hfront⟩ := h tokens error middle hrule
    obtain ⟨back, rest, rfl, rfl, hback⟩ := hnone rest error left hrun
    exact ⟨front ++ back, rest, (List.append_assoc ..).symm, rfl, front, back, rfl, hfront, hback⟩

/-- A rule that answers with nothing only where another one does. -/
theorem Passes.bindNone {next : Option α → Parser (Option β)} (h : Passes rule void)
    (hnone : next none = return none) (hsome : ∀ a, Passes (next (some a)) fun _ => False) :
    Passes (rule >>= next) void := by
  refine (h.bind (hnone ▸ passes_none) hsome).mono ?_
  rintro _ ⟨front, _, rfl, hfront, rfl⟩
  rwa [List.append_nil]

theorem Passes.firstOf {others : List (Parser (Option α))} (h : Passes rule void)
    (hothers : Passes (firstOf others) void') :
    Passes (Parser.firstOf (rule :: others)) fun used => ∃ front back, used = front ++ back ∧
      void front ∧ void' back :=
  h.bind hothers fun _ => passes_some

theorem passes_firstOf_nil : Passes (firstOf ([] : List (Parser (Option α)))) (· = []) :=
  passes_none

variable {expression : Parser (Option Expr)}

/-- An axis that is read stays read. -/
theorem passes_step : Passes (step expression) fun used =>
    ∃ axis : Option Axis, used = (axis.map Token.axis).toList := by
  intro tokens error left hrun
  unfold step at hrun
  rw [StateT.run_bind] at hrun
  obtain ⟨⟨axis, middle⟩, haxis, hrun⟩ := bind_eq_ok.mp hrun
  obtain ⟨_, rest, hmiddle, rfl, rfl⟩ : ∃ used rest, middle.tokens = used ++ rest ∧
      left = ⟨rest, middle.error⟩ ∧ used = [] := by
    refine Passes.bindNone passes_next ?_ (fun _ => ?_) middle.tokens middle.error left hrun
    · rfl
    · exact passes_bind_never fun _ => passes_some
  obtain ⟨rfl, rfl, -⟩ | ⟨token, rest', value, rfl, htoken, rfl, rfl⟩ := run_next haxis
  · exact ⟨[], rest, hmiddle, rfl, none, rfl⟩
  · obtain rfl : rest' = rest := hmiddle
    refine ⟨[token], rest', rfl, rfl, some value, ?_⟩
    cases token with
    | axis value' =>
      cases htoken
      rfl
    | _ => cases htoken

/-- No tokens, or a pair of parentheses around tokens that denote nothing. -/
def Grouped (used : List Token) : Prop :=
  used = [] ∨ ∃ inside, Void inside ∧ used = .leftParen :: (inside ++ [.rightParen])

theorem passes_group (h : Passes expression Void) : Passes (group expression) Grouped := by
  intro tokens error left hrun
  unfold group at hrun
  rw [StateT.run_bind] at hrun
  obtain ⟨⟨opened, middle⟩, hopened, hrun⟩ := bind_eq_ok.mp hrun
  obtain ⟨rfl, rfl, -⟩ | ⟨token, rest, _, rfl, htoken, rfl, rfl⟩ := run_next hopened
  · cases hrun
    exact ⟨[], tokens, rfl, rfl, .inl rfl⟩
  · change ((expression >>= fun e => _).run _ : Except _ _) = _ at hrun
    rw [StateT.run_bind] at hrun
    obtain ⟨⟨found, behind⟩, hfound, hrun⟩ := bind_eq_ok.mp hrun
    rw [StateT.run_bind] at hrun
    obtain ⟨⟨_, last⟩, hclosed, hrun⟩ := bind_eq_ok.mp hrun
    cases hrun
    obtain ⟨inside, rest, rfl, rfl, hinside⟩ := h _ _ _ hfound
    obtain ⟨token', rest, rfl, htoken', rfl⟩ := run_take hclosed
    refine ⟨.leftParen :: (inside ++ [.rightParen]), rest, ?_, rfl, .inr ⟨inside, hinside, rfl⟩⟩
    cases token with
    | leftParen => cases token' with
      | rightParen => simp
      | _ => cases htoken'
    | _ => cases htoken

theorem passes_primary (h : Passes expression Void) : Passes (primary expression) Grouped := by
  have hcall : Passes (call expression) (· = []) :=
    passes_next.bindNone rfl fun _ => passes_bind_never fun _ => passes_some
  refine (passes_next.firstOf ((passes_group h).firstOf (passes_next.firstOf
    (passes_next.firstOf (hcall.firstOf passes_firstOf_nil))))).mono ?_
  rintro _ ⟨_, _, rfl, rfl, used, _, rfl, hused, _, _, rfl, rfl, _, _, rfl, rfl, _, _, rfl, rfl,
    rfl⟩
  simpa using hused

theorem passes_path (h : Passes expression Void) : Passes (path expression) Void := by
  have hsteps : Passes (relativePath expression) fun used =>
      ∃ axis : Option Axis, used = (axis.map Token.axis).toList :=
    passes_step.bindNone rfl fun _ => passes_bind_never fun _ => passes_some
  have hrelative : Passes ((·.map (Expr.path .contextNode)) <$> relativePath expression)
      fun used => ∃ axis : Option Axis, used = (axis.map Token.axis).toList := by
    rw [map_eq_pure_bind]
    exact hsteps.bindNone rfl fun _ => passes_some
  have habsolute : Passes (absolutePath expression) (· = []) := by
    refine passes_next.bindNone rfl fun _ => passes_bind_never fun steps => ?_
    cases steps with
    | none => exact passes_some
    | some steps => exact passes_some
  have hfiltered : Passes (filtered expression) Grouped := by
    refine (passes_primary h).bindNone rfl fun e => passes_bind_never fun predicates => ?_
    refine passes_bind_never fun found => ?_
    cases found with
    | none => exact passes_some
    | some _ => exact passes_bind_never fun _ => passes_some
  refine (hrelative.firstOf (habsolute.firstOf (hfiltered.firstOf passes_firstOf_nil))).mono ?_
  rintro _ ⟨_, _, rfl, ⟨axis, rfl⟩, _, _, rfl, rfl, used, _, rfl, hused, rfl⟩
  rw [List.nil_append, List.append_nil]
  obtain rfl | ⟨inside, hinside, rfl⟩ := hused
  · rw [List.append_nil]
    exact .bare axis
  · exact .group axis hinside

theorem passes_chain {operator : Token → Option BinaryOp} {operand : Parser (Option Expr)}
    (h : Passes operand void) : Passes (chain operator operand) void :=
  h.bindNone rfl fun _ => passes_bind_never fun _ => passes_some

theorem passes_levels {operand : Parser (Option Expr)} (h : Passes operand void) :
    Passes (levels.foldr chain operand) void := by
  induction levels with
  | nil => exact h
  | cons operator operators ih => exact passes_chain ih

theorem passes_signed {union : Parser (Option Expr)} (h : Passes union Void) (signs : Nat) :
    Passes (signed union signs) Void := by
  cases signs with
  | zero =>
    refine passes_none.mono ?_
    rintro _ rfl
    exact .bare none
  | succ signs =>
    have hunion : Passes (signed union (signs + 1)) fun used =>
        ∃ front back, used = front ++ back ∧ Void front ∧ back = [] :=
      h.bind (passes_next.bindNone rfl fun _ => passes_bind_never fun _ => passes_some)
        fun _ => passes_some
    refine hunion.mono ?_
    rintro _ ⟨front, _, rfl, hfront, rfl⟩
    rwa [List.append_nil]

theorem passes_expressionTo (depth : Nat) : Passes (expressionTo depth) Void := by
  induction depth with
  | zero =>
    refine passes_none.mono ?_
    rintro _ rfl
    exact .bare none
  | succ depth ih =>
    intro tokens error left hrun
    rw [expressionTo, StateT.run_bind] at hrun
    rw [StateT.run_get, pure_bind] at hrun
    exact passes_levels (passes_signed (passes_chain (passes_path ih)) _) tokens error left hrun

/-! ## Where nothing is found -/

/-- The rule answers with nothing, and leaves what is told. -/
def Skips (rule : Parser (Option α)) (before after : TokenStream) : Prop :=
  rule.run before = .ok (none, after)

variable {before middle after : TokenStream}

theorem skips_none : Skips (return none : Parser (Option α)) before before := rfl

/-- A rule answers with nothing if it does behind what its first part takes. -/
theorem skips_bind {rule : Parser α} {next : α → Parser (Option β)} {a : α}
    (h : rule.run before = .ok (a, middle)) (hnext : Skips (next a) middle after) :
    Skips (rule >>= next) before after := by
  rw [Skips, StateT.run_bind, h]
  exact hnext

theorem Skips.bind {rule : Parser (Option α)} {next : Option α → Parser (Option β)}
    (h : Skips rule before middle) (hnext : Skips (next none) middle after) :
    Skips (rule >>= next) before after :=
  skips_bind h hnext

theorem Skips.firstOf {rule : Parser (Option α)} {others : List (Parser (Option α))}
    (h : Skips rule before middle) (hothers : Skips (firstOf others) middle after) :
    Skips (Parser.firstOf (rule :: others)) before after :=
  h.bind hothers

theorem skips_firstOf_nil : Skips (firstOf ([] : List (Parser (Option α)))) before before := rfl

theorem Skips.chain {operator : Token → Option BinaryOp} {operand : Parser (Option Expr)}
    (h : Skips operand before after) : Skips (chain operator operand) before after :=
  h.bind skips_none

theorem Skips.levels {operand : Parser (Option Expr)} (h : Skips operand before after) :
    Skips (levels.foldr Parser.chain operand) before after := by
  induction Parser.levels with
  | nil => exact h
  | cons operator operators ih => exact ih.chain

/-- What follows an expression ends it: there is nothing left, or a closing parenthesis. -/
def Closed (tokens : List Token) : Prop := ∀ token ∈ tokens.head?, token = .rightParen

theorem Closed.skips_next {value : Token → Option α} (h : Closed tokens)
    (hvalue : value .rightParen = none) : Skips (next? value) ⟨tokens, error⟩ ⟨tokens, error⟩ :=
  run_next_left fun token htoken => by rw [h token htoken, hvalue]

theorem skips_group {inside rest : List Token}
    (h : Skips expression ⟨inside ++ .rightParen :: rest, error⟩ ⟨.rightParen :: rest, error⟩) :
    Skips (group expression) ⟨.leftParen :: (inside ++ .rightParen :: rest), error⟩
      ⟨rest, error⟩ := by
  exact skips_bind (run_next_taken rfl) (h.bind (skips_bind (a := ()) rfl skips_none))

/-- A place where a primary expression may start, but none that is there for certain. -/
def Unsettled (tokens : List Token) : Prop :=
  ∀ token ∈ tokens.head?, token = .leftParen ∨ token = .rightParen

theorem Unsettled.skips_next {value : Token → Option α} (h : Unsettled tokens)
    (hleft : value .leftParen = none) (hright : value .rightParen = none) :
    Skips (next? value) ⟨tokens, error⟩ ⟨tokens, error⟩ :=
  run_next_left fun token htoken => by
    obtain rfl | rfl := h token htoken
    · exact hleft
    · exact hright

theorem skips_step {axis : Option Axis} {body : List Token} (h : Unsettled body) :
    Skips (step expression) ⟨(axis.map Token.axis).toList ++ body, error⟩ ⟨body, error⟩ := by
  cases axis with
  | none => exact skips_bind (h.skips_next rfl rfl) ((h.skips_next rfl rfl).bind skips_none)
  | some value =>
    exact skips_bind (run_next_taken rfl) ((h.skips_next rfl rfl).bind skips_none)

theorem skips_path {axis : Option Axis} {body rest : List Token} (h : Unsettled body)
    (hbody : Skips (primary expression) ⟨body, error⟩ ⟨rest, error⟩) :
    Skips (path expression) ⟨(axis.map Token.axis).toList ++ body, error⟩ ⟨rest, error⟩ := by
  have hrelative : Skips ((·.map (Expr.path .contextNode)) <$> relativePath expression)
      ⟨(axis.map Token.axis).toList ++ body, error⟩ ⟨body, error⟩ := by
    have hsteps : Skips (relativePath expression)
        ⟨(axis.map Token.axis).toList ++ body, error⟩ ⟨body, error⟩ :=
      (skips_step h).bind skips_none
    rw [map_eq_pure_bind]
    exact hsteps.bind skips_none
  have habsolute : Skips (absolutePath expression) ⟨body, error⟩ ⟨body, error⟩ :=
    (h.skips_next rfl rfl).bind skips_none
  have hfiltered : Skips (filtered expression) ⟨body, error⟩ ⟨rest, error⟩ := hbody.bind skips_none
  exact hrelative.firstOf (habsolute.firstOf (hfiltered.firstOf skips_firstOf_nil))

theorem skips_primary {body rest : List Token} (hbody : Unsettled body) (hrest : Closed rest)
    (h : Skips (group expression) ⟨body, error⟩ ⟨rest, error⟩) :
    Skips (primary expression) ⟨body, error⟩ ⟨rest, error⟩ := by
  have hcall : Skips (call expression) ⟨rest, error⟩ ⟨rest, error⟩ :=
    (hrest.skips_next rfl).bind skips_none
  refine Skips.firstOf (hbody.skips_next ?_ ?_) (h.firstOf (Skips.firstOf (hrest.skips_next ?_)
    (Skips.firstOf (hrest.skips_next ?_) (hcall.firstOf skips_firstOf_nil))))
  all_goals rfl

theorem skips_expressionTo_succ {depth : Nat} {rest : List Token} (hrest : Closed rest)
    (h : Skips (path (expressionTo depth)) ⟨tokens, error⟩ ⟨rest, error⟩) :
    Skips (expressionTo (depth + 1)) ⟨tokens, error⟩ ⟨rest, error⟩ := by
  have hsigned {union : Parser (Option Expr)} (signs : Nat)
      (hunion : Skips union ⟨tokens, error⟩ ⟨rest, error⟩) :
      Skips (signed union (signs + 1)) ⟨tokens, error⟩ ⟨rest, error⟩ :=
    hunion.bind ((hrest.skips_next rfl).bind skips_none)
  rw [Skips, expressionTo, StateT.run_bind, StateT.run_get, pure_bind]
  exact (hsigned _ h.chain).levels

/-- Tokens that denote nothing are taken, and nothing is found. -/
theorem skips_expressionTo {used : List Token} (h : Void used) {depth : Nat}
    (hdepth : used.length < depth) {rest : List Token} (hrest : Closed rest) :
    Skips (expressionTo depth) ⟨used ++ rest, error⟩ ⟨rest, error⟩ := by
  induction h generalizing depth rest with
  | bare axis =>
    cases depth with
    | zero => cases hdepth
    | succ depth =>
      have hbody : Unsettled rest := fun token htoken => .inr (hrest token htoken)
      have hgroup : Skips (group (expressionTo depth)) ⟨rest, error⟩ ⟨rest, error⟩ :=
        (hrest.skips_next rfl).bind skips_none
      exact skips_expressionTo_succ hrest (skips_path hbody (skips_primary hbody hrest hgroup))
  | @group axis inside h ih =>
    cases depth with
    | zero => cases hdepth
    | succ depth =>
      have hinside : inside.length < depth := by
        simp only [List.length_append, List.length_cons] at hdepth
        omega
      have hbody : Unsettled (.leftParen :: (inside ++ .rightParen :: rest)) := by
        rintro _ ⟨⟩
        exact .inl rfl
      have hclosed : Closed (.rightParen :: rest) := by
        rintro _ ⟨⟩
        rfl
      have hgroup := skips_group (ih hinside hclosed)
      rw [List.append_assoc, List.cons_append, List.append_assoc]
      exact skips_expressionTo_succ hrest (skips_path hbody (skips_primary hbody hrest hgroup))

end Parser

/-! ## Queries -/

/-- The parser finds nothing in a query, and no fault with it, if and only if the query is cut into
tokens to its end and these denote nothing. -/
theorem Expr.parse_eq_none_iff {query : String} :
    Expr.parse query = .ok none ↔
      (TokenStream.ofText query).error = none ∧ Void (TokenStream.ofText query).tokens := by
  rw [Expr.parse_eq_ok_iff, Parser.run_expression]
  obtain ⟨tokens, error⟩ := TokenStream.ofText query
  constructor
  · intro hrun
    obtain ⟨used, rest, rfl, hleft, hused⟩ := Parser.passes_expressionTo _ _ _ _ hrun
    cases hleft
    rw [List.append_nil]
    exact ⟨rfl, hused⟩
  · rintro ⟨rfl, hvoid⟩
    have hskips : Parser.Skips (Parser.expressionTo (tokens.length + 1)) ⟨tokens ++ [], none⟩ _ :=
      Parser.skips_expressionTo hvoid (Nat.lt_succ_self _) nofun
    rwa [List.append_nil] at hskips

/-- The queries that are reported as empty: those of blanks only, and those that denote nothing. -/
theorem Query.compile_eq_nothing_iff {query : String} :
    Query.compile query = .error nothingToCompile ↔ Text.allBlank query = true ∨
      (TokenStream.ofText query).error = none ∧ Void (TokenStream.ofText query).tokens := by
  rw [← Expr.parse_eq_none_iff, Query.compile]
  split
  · next hblank => exact iff_of_true rfl (.inl hblank)
  · next hblank =>
    rw [or_iff_right hblank]
    cases Expr.parse query with
    | ok found => cases found <;> simp
    | error e =>
      refine iff_of_false (fun h => ?_) nofun
      have hkind : xpathSyntaxKind = emptyExpressionKind :=
        congrArg EngineFailure.kind (Except.error.inj h)
      exact absurd hkind (by decide)

end XPathBench.XPath

import XPathBench.XPath.Engine

/-!
# What expressions take from their environment

An expression takes nothing from its environment but the document, the namespaces of prefixes and
the texts of variables. A variable stands for its text: a reference to it may be replaced by the
literal.

* `Expr.fill`: an expression with literals in place of references to variables
* `Environment.Fills`: an environment in which such an expression has the value of the former one
* `evaluate_fill`: it has
* `engine_congr`: engines with bindings that tell the same are the same
-/

namespace XPathBench.XPath

open Environment

mutual

/-- An expression with literals in place of references to variables that have a text. -/
def Expr.fill (texts : String → Option String) : Expr → Expr
  | .binary op left right => .binary op (left.fill texts) (right.fill texts)
  | .negate operand => .negate (operand.fill texts)
  | .variable ⟨none, name⟩ => (texts name).elim (.variable ⟨none, name⟩) .literal
  | .call function arguments => .call function (fillAll texts arguments)
  | .path start steps => .path (start.fill texts) (fillSteps texts steps)
  | .filter nodes predicate => .filter (nodes.fill texts) (predicate.fill texts)
  | e => e

/-- Expressions with literals in place of references. -/
def fillAll (texts : String → Option String) : List Expr → List Expr
  | [] => []
  | e :: rest => e.fill texts :: fillAll texts rest

/-- A step with literals in place of references. -/
def Step.fill (texts : String → Option String) : Step → Step
  | .mk axis test predicates => .mk axis test (fillAll texts predicates)

/-- Steps with literals in place of references. -/
def fillSteps (texts : String → Option String) : List Step → List Step
  | [] => []
  | step :: rest => step.fill texts :: fillSteps texts rest

end

/-- The second environment differs from the first one at most in variables, and those with which it
does have the given texts. -/
structure Environment.Fills (texts : String → Option String) (env env' : Environment) : Prop where
  document : env'.document = env.document
  namespaces : ∀ p, lastBinding? env'.namespaces p = lastBinding? env.namespaces p
  vars : ∀ name, (texts name).or (lastBinding? env'.vars name) = lastBinding? env.vars name

variable {texts : String → Option String} {env env' : Environment}

theorem Environment.resolve_prefixed (p localName : String) : env.resolve ⟨some p, localName⟩ =
    match lastBinding? env.namespaces p with
    | some uri => .ok (some uri)
    | none => fail (.unknownPrefix p) := rfl

theorem Environment.valueOf_unprefixed (name : String) : env.valueOf ⟨none, name⟩ =
    match lastBinding? env.vars name with
    | some text => .ok (.string text)
    | none => fail (.unknownVariable ⟨none, name⟩) := rfl

/-- With a prefix there is no variable, whatever namespace the prefix stands for. -/
theorem Environment.valueOf_prefixed (p localName : String) : env.valueOf ⟨some p, localName⟩ =
    fail (if (lastBinding? env.namespaces p).isSome then .unknownVariable ⟨some p, localName⟩
      else .unknownPrefix p) := by
  unfold valueOf
  rw [resolve_prefixed]
  cases lastBinding? env.namespaces p <;> rfl

/-- A prefix in a name test asks for its namespace. Any local name will do if none is given. -/
theorem Environment.passesNameTest_prefixed {p uri : String}
    (h : lastBinding? env.namespaces p = some uri) (place : Place) (localName : Option String) :
    ∃ passes, env.passesNameTest place ⟨some p, localName⟩ = .ok passes ∧
      (passes = true ↔ ∃ found, place.expandedName? = some (some uri, found) ∧
        ∀ name ∈ localName, name = found) := by
  unfold passesNameTest
  simp only [h]
  refine ⟨_, rfl, ?_⟩
  rw [Option.any_eq_true]
  constructor
  · rintro ⟨⟨namespaceUri, found⟩, hname, hfound⟩
    rw [Bool.and_eq_true, beq_iff_eq, Option.all_eq_true] at hfound
    obtain ⟨rfl, hlocal⟩ := hfound
    exact ⟨found, hname, fun name hmem => beq_iff_eq.mp (hlocal name hmem)⟩
  · rintro ⟨found, hname, hlocal⟩
    refine ⟨_, hname, ?_⟩
    rw [Bool.and_eq_true, beq_iff_eq, Option.all_eq_true]
    exact ⟨rfl, fun name hmem => beq_iff_eq.mpr (hlocal name hmem)⟩

theorem Environment.passesNameTest_unbound {p : String} (h : lastBinding? env.namespaces p = none)
    (place : Place) (localName : Option String) : env.passesNameTest place ⟨some p, localName⟩ =
      .error (.crash (.message "No namespace for prefix")) := by
  unfold passesNameTest
  simp only [h]

namespace Environment.Fills

theorem resolve (h : env.Fills texts env') (name : Xml.PrefixedName) :
    env'.resolve name = env.resolve name := by
  unfold Environment.resolve
  simp only [h.namespaces]

theorem functionOf (h : env.Fills texts env') (name : Xml.PrefixedName) :
    env'.functionOf name = env.functionOf name := by
  unfold Environment.functionOf
  rw [h.resolve]

theorem passes (h : env.Fills texts env') (axis : Axis) (p : Place) (test : Test) :
    env'.passes axis p test = env.passes axis p test := by
  cases test with
  | node test => rfl
  | name test =>
    unfold Environment.passes passesNameTest
    simp only [h.namespaces]

theorem candidates (h : env.Fills texts env') (axis : Axis) (test : Test) (p : Place) :
    env'.candidates axis test p = env.candidates axis test p := by
  unfold Environment.candidates
  simp only [h.passes]

/-- A reference has the text of its variable, or what the first environment makes of it. -/
theorem evaluate_variable (h : env.Fills texts env') (focus : Focus) (name : Xml.PrefixedName) :
    ((Expr.variable name).fill texts).evaluate env' focus = env.valueOf name := by
  obtain ⟨prefixName, localName⟩ := name
  cases prefixName with
  | some p =>
    show env'.valueOf ⟨some p, localName⟩ = env.valueOf ⟨some p, localName⟩
    rw [valueOf_prefixed, valueOf_prefixed, h.namespaces]
  | none =>
    have hvars := h.vars localName
    unfold Expr.fill
    cases htext : texts localName with
    | some text =>
      rw [htext, Option.some_or] at hvars
      rw [valueOf_unprefixed, ← hvars]
      rfl
    | none =>
      rw [htext, Option.none_or] at hvars
      show env'.valueOf ⟨none, localName⟩ = env.valueOf ⟨none, localName⟩
      rw [valueOf_unprefixed, valueOf_unprefixed, hvars]

end Environment.Fills

mutual

theorem evaluate_fill (h : env.Fills texts env') (focus : Focus) :
    (e : Expr) → (e.fill texts).evaluate env' focus = e.evaluate env focus
  | .binary op left right => by
    simp only [Expr.fill, Expr.evaluate, evaluate_fill h focus left, evaluate_fill h focus right,
      h.document]
  | .negate operand => by
    simp only [Expr.fill, Expr.evaluate, evaluate_fill h focus operand]
  | .literal _ | .number _ | .contextNode => rfl
  | .root => by
    simp only [Expr.fill, Expr.evaluate, h.document]
  | .variable name => h.evaluate_variable focus name
  | .call function arguments => by
    simp only [Expr.fill, Expr.evaluate, h.functionOf, evaluateAll_fill h focus arguments]
  | .path start steps => by
    simp only [Expr.fill, Expr.evaluate, evaluate_fill h focus start, followSteps_fill h steps]
  | .filter nodes predicate => by
    have hpredicate (focus : Focus) := evaluate_fill h focus predicate
    simp only [Expr.fill, Expr.evaluate, evaluate_fill h focus nodes, hpredicate]

theorem evaluateAll_fill (h : env.Fills texts env') (focus : Focus) :
    (es : List Expr) → evaluateAll env' focus (fillAll texts es) = evaluateAll env focus es
  | [] => rfl
  | e :: rest => by
    simp only [fillAll, evaluateAll, evaluate_fill h focus e, evaluateAll_fill h focus rest]

theorem keepAll_fill (h : env.Fills texts env') :
    (predicates : List Expr) → (places : List Place) →
      keepAll env' places (fillAll texts predicates) = keepAll env places predicates
  | [], _ => rfl
  | predicate :: rest, places => by
    have hpredicate (focus : Focus) := evaluate_fill h focus predicate
    have hrest (places : List Place) := keepAll_fill h rest places
    simp only [fillAll, keepAll, hpredicate, hrest]

theorem follow_fill (h : env.Fills texts env') (places : List Place) :
    (step : Step) → (step.fill texts).follow env' places = step.follow env places
  | .mk axis test predicates => by
    have hpredicates (places : List Place) := keepAll_fill h predicates places
    simp only [Step.fill, Step.follow, h.candidates, hpredicates, h.document]

theorem followSteps_fill (h : env.Fills texts env') :
    (steps : List Step) → (places : List Place) →
      followSteps env' places (fillSteps texts steps) = followSteps env places steps
  | [], _ => rfl
  | step :: rest, places => by
    have hrest (places : List Place) := followSteps_fill h rest places
    simp only [fillSteps, followSteps, follow_fill h places step, hrest]

end

/-- A query is evaluated without variables as it is with them, if the texts of the variables are put
in place of references to them. -/
theorem evaluate_fill_vars (bindings : Bindings) (document : Xml.Document) (focus : Focus)
    (e : Expr) : (e.fill (lastBinding? bindings.vars)).evaluate
      ⟨⟨bindings.namespaces, []⟩, document⟩ focus = e.evaluate ⟨bindings, document⟩ focus := by
  apply evaluate_fill
  exact
    { document := rfl
      namespaces := fun _ => rfl
      vars := fun name => Option.or_none }

/-! ## Engines -/

section Engines

variable {bindings bindings' : Bindings}
  (hnamespaces : ∀ p, lastBinding? bindings'.namespaces p = lastBinding? bindings.namespaces p)
  (hvars : ∀ name, lastBinding? bindings'.vars name = lastBinding? bindings.vars name)

include hnamespaces hvars

theorem Query.evaluate_congr (query : Query) (document : Xml.Document) :
    query.evaluate bindings' document = query.evaluate bindings document := by
  have hfills (b : Bindings) (hnamespaces : ∀ p, lastBinding? bindings'.namespaces p =
      lastBinding? b.namespaces p) (hvars : ∀ name, lastBinding? bindings'.vars name =
      lastBinding? b.vars name) :
      Environment.Fills (fun _ => none) ⟨b, document⟩ ⟨bindings', document⟩ :=
    { document := rfl
      namespaces := hnamespaces
      vars := fun name => by rw [Option.none_or, hvars] }
  have hvalue : (Environment.mk bindings' document).evaluate query.expr =
      (Environment.mk bindings document).evaluate query.expr := by
    refine (evaluate_fill (hfills bindings' (fun _ => rfl) fun _ => rfl) _ query.expr).symm.trans ?_
    exact evaluate_fill (hfills bindings hnamespaces hvars) _ query.expr
  unfold evaluate
  rw [hvalue]

/-- Engines are the same if their bindings tell the same of each prefix and each variable. -/
theorem engine_congr {m : Type → Type} [Monad m] (backtraces : Backtraces) :
    (engine bindings' backtraces : Engine m Xml.Document Query) = engine bindings backtraces := by
  unfold engine
  simp only [Query.evaluate_congr hnamespaces hvars]

end Engines

end XPathBench.XPath

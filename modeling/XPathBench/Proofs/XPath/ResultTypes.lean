import XPathBench.Proofs.Actions
import XPathBench.XPath.Evaluate
import XPathBench.XPath.Outline

/-!
# Types of values

What can be said of the type of a value from the expression alone.

* `Expr.Yields`: all values of an expression are of a type
* `yields_binary`, `yields_call`: operators and functions
-/

namespace XPathBench.XPath

open Environment
open Xml (PrefixedName)

/-- The type of a value. -/
def Value.type : Value → ResultType
  | boolean _ => .boolean
  | number _ => .number
  | string _ => .string
  | nodeSet _ => .nodeSet

/-- The class of an operator. -/
def BinaryOp.kind : BinaryOp → OperatorClass
  | or => .or
  | and => .and
  | equal | notEqual => .equality
  | less | lessOrEqual | greater | greaterOrEqual => .relational
  | add | subtract => .additive
  | multiply | divide | remainder => .multiplicative
  | union => .union

namespace Function

variable {f : Function} {focus : Focus} {arguments : List Value} {v : Value}

/-- The type of what a function returns. -/
def type : Function → ResultType
  | last | position | count | stringLength | number | sum | floor | ceiling | round => .number
  | localName | namespaceUri | name | string | concat | substringBefore | substringAfter
  | substring | normalizeSpace | translate => .string
  | startsWith | contains | boolean | not | true | false => .boolean

theorem type_of_evaluate (h : f.evaluate focus arguments = .ok v) : v.type = f.type := by
  cases f with
  | count | localName | namespaceUri | name | sum =>
    obtain ⟨nodes, _, h⟩ := bind_eq_ok.mp h
    cases h
    rfl
  | startsWith | contains | substringBefore | substringAfter | substring | translate | number =>
    simp only [evaluate] at h
    split at h <;> cases h <;> rfl
  | _ =>
    cases h
    rfl

theorem type_of_apply (h : f.apply focus arguments = .ok v) : v.type = f.type := by
  obtain ⟨_, _, h⟩ := bind_eq_ok.mp h
  exact type_of_evaluate h

/-- The outline knows the functions by their names. -/
theorem functionType_of_named {name : String} (h : named? name = some f) :
    Outline.isNodeType name.toList = Bool.false ∧ Outline.functionType name.toList = f.type := by
  have hall : ∀ entry ∈ names, Outline.isNodeType entry.1.toList = Bool.false ∧
      Outline.functionType entry.1.toList = entry.2.type := by decide
  obtain ⟨before, behind, hnames, _⟩ := List.lookup_eq_some_iff.mp h
  exact hall (name, f) (by rw [hnames]; simp)

end Function

/-- All values that an expression can have are of a type. -/
def Expr.Yields (e : Expr) (t : ResultType) : Prop :=
  ∀ env focus v, e.evaluate env focus = .ok v → v.type = t

namespace Expr

variable {op : BinaryOp} {e left right : Expr}

theorem yields_literal {value : String} : (literal value).Yields .string := by
  intro env focus v h
  cases h
  rfl

theorem yields_number {value : Float} : (number value).Yields .number := by
  intro env focus v h
  cases h
  rfl

theorem yields_root : root.Yields .nodeSet := by
  intro env focus v h
  cases h
  rfl

theorem yields_negate : (negate e).Yields .number := by
  intro env focus v h
  obtain ⟨a, _, h⟩ := bind_eq_ok.mp h
  cases h
  rfl

theorem yields_path {start : Expr} {steps : List Step} : (path start steps).Yields .nodeSet := by
  intro env focus v h
  obtain ⟨_, _, h⟩ := bind_eq_ok.mp h
  obtain ⟨_, _, h⟩ := bind_eq_ok.mp h
  obtain ⟨_, _, h⟩ := bind_eq_ok.mp h
  cases h
  rfl

theorem yields_filter {nodes predicate : Expr} : (filter nodes predicate).Yields .nodeSet := by
  intro env focus v h
  obtain ⟨_, _, h⟩ := bind_eq_ok.mp h
  obtain ⟨_, _, h⟩ := bind_eq_ok.mp h
  obtain ⟨_, _, h⟩ := bind_eq_ok.mp h
  cases h
  rfl

theorem yields_binary : (binary op left right).Yields op.kind.resultType := by
  intro env focus v h
  obtain ⟨a, _, h⟩ := bind_eq_ok.mp h
  cases op with
  | or | and =>
    simp only at h
    split at h
    · first
        | cases h; rfl
        | obtain ⟨b, _, h⟩ := bind_eq_ok.mp h; cases h; rfl
    · first
        | cases h; rfl
        | obtain ⟨b, _, h⟩ := bind_eq_ok.mp h; cases h; rfl
  | union =>
    obtain ⟨_, _, h⟩ := bind_eq_ok.mp h
    obtain ⟨_, _, h⟩ := bind_eq_ok.mp h
    obtain ⟨_, _, h⟩ := bind_eq_ok.mp h
    cases h
    rfl
  | _ =>
    obtain ⟨b, _, h⟩ := bind_eq_ok.mp h
    cases h
    rfl

theorem named_of_functionOf {env : Environment} {name : PrefixedName} {f : Function}
    (h : env.functionOf name = .ok f) :
    name.prefixName = none ∧ Function.named? name.localName = some f := by
  obtain ⟨uri, huri, h⟩ := bind_eq_ok.mp h
  cases uri with
  | some uri => cases h
  | none =>
    have hpre : name.prefixName = none := by
      rw [resolve] at huri
      split at huri
      · assumption
      · split at huri <;> cases huri
    refine ⟨hpre, ?_⟩
    simp only at h
    split at h
    · next g hg =>
      cases h
      exact hg
    · cases h

/-- A call has a value only if its name is that of a function, which has no prefix. -/
theorem yields_call {name : PrefixedName} {arguments : List Expr} :
    (call name arguments).Yields (if Outline.isNodeType name.text.toList then .nodeSet
      else Outline.functionType name.text.toList) := by
  intro env focus v h
  obtain ⟨f, hf, h⟩ := bind_eq_ok.mp h
  obtain ⟨values, _, h⟩ := bind_eq_ok.mp h
  obtain ⟨hpre, hnamed⟩ := named_of_functionOf hf
  obtain ⟨hnode, htype⟩ := Function.functionType_of_named hnamed
  have htext : name.text = name.localName := by rw [PrefixedName.text, hpre]
  rw [htext, hnode, if_neg Bool.false_ne_true, htype]
  split at h
  · next value happly =>
    cases h
    exact Function.type_of_apply happly
  · cases h

end Expr

end XPathBench.XPath

import XPathBench.Engine
import XPathBench.XPath.Expr
import XPathBench.XPath.Function

/-!
Evaluating expressions.

* `Bindings`, `Environment`: what expressions are evaluated with
* `Expr.evaluate`: the value of an expression at a focus
* `Environment.evaluate`: its value at the root of the document
-/

namespace XPathBench.XPath

open Xml (PrefixedName)

/-- Why an expression has no value. -/
inductive EvaluationError where
  | notANodeSet
  | unknownPrefix (name : String)
  | unknownFunction (name : PrefixedName)
  | unknownVariable (name : PrefixedName)
  | badArguments (error : ArgumentError)
deriving DecidableEq, Repr

/-- The error in words. -/
def EvaluationError.message : EvaluationError → String
  | notANodeSet => "NotANodeset"
  | unknownPrefix name => s!"unknown namespace prefix {name}"
  | unknownFunction name => "unknown function " ++ describeName name
  | unknownVariable name => "unknown variable " ++ describeName name
  | badArguments error => "error while evaluating function: " ++ error.message

/-- The prefixes and variables bound for all expressions. Of two bindings of one name the later one
counts. -/
structure Bindings where
  namespaces : List (String × String)
  vars : List (String × String)
deriving Repr

/-- No prefix and no variable is bound. -/
def Bindings.none : Bindings := ⟨[], []⟩

/-- What expressions are evaluated with. -/
structure Environment extends Bindings where
  document : Xml.Document

/-- The value of a name in bindings of which the later ones count. -/
def lastBinding? (bindings : List (String × String)) (name : String) : Option String :=
  bindings.reverse.lookup name

/-- An evaluation. -/
abbrev Evaluated (α : Type) := Attempt EvaluationError α

namespace Environment

/-- An evaluation that fails. -/
def fail {α : Type} (error : EvaluationError) : Evaluated α := .error (.failure error)

/-- The namespace of a prefix in the name of a function or variable; none without prefix. -/
def resolve (env : Environment) (name : PrefixedName) : Evaluated (Option String) :=
  match name.prefixName with
  | none => .ok none
  | some p => match lastBinding? env.namespaces p with
    | some uri => .ok (some uri)
    | none => fail (.unknownPrefix p)

/-- The value of a variable. Variables are in no namespace. -/
def valueOf (env : Environment) (name : PrefixedName) : Evaluated Value := do
  match ← env.resolve name with
  | some _ => fail (.unknownVariable name)
  | none => match lastBinding? env.vars name.localName with
    | some value => return .string value
    | none => fail (.unknownVariable name)

/-- The function with a name. Functions are in no namespace. -/
def functionOf (env : Environment) (name : PrefixedName) : Evaluated Function := do
  match ← env.resolve name with
  | some _ => fail (.unknownFunction name)
  | none => match Function.named? name.localName with
    | some f => return f
    | none => fail (.unknownFunction name)

/-! ## Steps -/

/-- The places on an axis, in the order in which the axis passes them. -/
def onAxis (p : Place) : Axis → List Place
  | .ancestor => p.ancestors
  | .ancestorOrSelf => p :: p.ancestors
  | .attributes => p.attributes
  | .child => p.children
  | .descendant => p.descendants
  | .descendantOrSelf => p.descendantsOrSelf
  | .following => p.following
  | .followingSibling => p.followingSiblings
  | .namespaces => p.namespaces
  | .parent => p.parent?.toList
  | .preceding => p.preceding
  | .precedingSibling => p.precedingSiblings
  | .self => [p]

/-- The place is of the kind that names on an axis belong to: attributes, namespaces or elements. -/
def isPrincipal (p : Place) : Axis → Bool
  | .attributes => p.isAttribute
  | .namespaces => p.isBinding
  | _ => p.isElement

/-- The place passes a test for its kind. -/
def passesNodeTest (p : Place) : NodeTest → Bool
  | .node => true
  | .text => match p with
    | .node _ _ (.text _) => true
    | _ => false
  | .comment => match p with
    | .node _ _ (.comment _) => true
    | _ => false
  | .instruction target => match p with
    | .node _ _ (.instruction found _) => target.all (· == found)
    | _ => false

/-- The place passes a test for its name. A prefix that is not bound crashes the evaluation. -/
def passesNameTest (env : Environment) (p : Place) (test : NameTest) : Evaluated Bool :=
  match test.prefixName, test.localName with
  | none, none => .ok true
  | none, some name => .ok (p.expandedName? == some (none, name))
  | some prefixName, name => match lastBinding? env.namespaces prefixName with
    | none => .error (.crash (.message "No namespace for prefix"))
    | some uri => .ok (p.expandedName?.any fun found =>
        found.1 == some uri && name.all (· == found.2))

/-- The place passes the test of a step. -/
def passes (env : Environment) (axis : Axis) (p : Place) : Test → Evaluated Bool
  | .node test => .ok (passesNodeTest p test)
  | .name test => if isPrincipal p axis then env.passesNameTest p test else .ok false

/-- The places on an axis that pass a test. -/
def candidates (env : Environment) (axis : Axis) (test : Test) (p : Place) :
    Evaluated (List Place) :=
  (onAxis p axis).filterM fun q => env.passes axis q test

/-- A predicate with this value keeps a place: a number has to be the position, cut off towards
zero; other values have to be true. -/
def keeps (focus : Focus) : Value → Bool
  | .number x => focus.position == x.toUInt64.toNat
  | v => v.toBoolean

/-- Places with their numbers and their count. -/
def foci (places : List Place) : List Focus :=
  (places.zipIdx 1).map fun (p, i) => ⟨p, i, places.length⟩

/-- The places, of those given in order, that a predicate keeps, which is given by its value at each
of them. -/
def keepMatching (predicate : Focus → Evaluated Value) (places : List Place) :
    Evaluated (List Place) := do
  let kept ← (foci places).filterM fun focus => return keeps focus (← predicate focus)
  return kept.map (·.place)

/-! ## Operators -/

/-- A comparison of two values as numbers. -/
def compareWith (test : Float → Float → Bool) (a b : Value) : Value :=
  .boolean (test a.toNumber b.toNumber)

/-- Arithmetic on two values as numbers. -/
def calculate (operation : Float → Float → Float) (a b : Value) : Value :=
  .number (operation a.toNumber b.toNumber)

/-- The places of a node-set. -/
def placesOf : Value → Evaluated (List Place)
  | .nodeSet places => .ok places
  | _ => fail .notANodeSet

/-- An operator on values, except for those that may leave out their second operand and for unions.
-/
def operate : BinaryOp → Value → Value → Value
  | .equal, a, b => .boolean (a.equals b)
  | .notEqual, a, b => .boolean !(a.equals b)
  | .less, a, b => compareWith (fun x y => x < y) a b
  | .lessOrEqual, a, b => compareWith (fun x y => x ≤ y) a b
  | .greater, a, b => compareWith (fun x y => y < x) a b
  | .greaterOrEqual, a, b => compareWith (fun x y => y ≤ x) a b
  | .add, a, b => calculate (· + ·) a b
  | .subtract, a, b => calculate (· - ·) a b
  | .multiply, a, b => calculate (· * ·) a b
  | .divide, a, b => calculate (· / ·) a b
  | .remainder, a, b => calculate Decimal.remainder a b
  | .or, a, b => .boolean (a.toBoolean || b.toBoolean)
  | .and, a, b => .boolean (a.toBoolean && b.toBoolean)
  | .union, a, _ => a

end Environment

open Environment

mutual

/-- The value of an expression at a focus. -/
def Expr.evaluate (env : Environment) (focus : Focus) : Expr → Evaluated Value
  | .binary op left right => do
    let a ← left.evaluate env focus
    match op with
    | .or => if a.toBoolean then return .boolean true
             else return .boolean (← right.evaluate env focus).toBoolean
    | .and => if a.toBoolean then return .boolean (← right.evaluate env focus).toBoolean
              else return .boolean false
    | .union => do
      let first ← placesOf a
      let second ← placesOf (← right.evaluate env focus)
      return .nodeSet (Place.inDocumentOrder env.document (first ++ second))
    | op => return operate op a (← right.evaluate env focus)
  | .negate operand => return .number (-(← operand.evaluate env focus).toNumber)
  | .literal value => return .string value
  | .number value => return .number value
  | .variable name => env.valueOf name
  | .call name arguments => do
    let f ← env.functionOf name
    let values ← evaluateAll env focus arguments
    match f.apply focus values with
    | .ok value => return value
    | .error e => fail (.badArguments e)
  | .contextNode => return .nodeSet [focus.place]
  | .root => return .nodeSet [.root env.document]
  | .path start steps => do
    let places ← placesOf (← start.evaluate env focus)
    return .nodeSet (← followSteps env places steps)
  | .filter nodes predicate => do
    let places ← placesOf (← nodes.evaluate env focus)
    return .nodeSet (← keepMatching (fun f => predicate.evaluate env f) places)

/-- The values of expressions. -/
def evaluateAll (env : Environment) (focus : Focus) : List Expr → Evaluated (List Value)
  | [] => return []
  | e :: rest => return (← e.evaluate env focus) :: (← evaluateAll env focus rest)

/-- The places for which all predicates hold, one predicate after the other. -/
def keepAll (env : Environment) (places : List Place) : List Expr → Evaluated (List Place)
  | [] => return places
  | predicate :: rest => do
    keepAll env (← keepMatching (fun focus => predicate.evaluate env focus) places) rest

/-- The places that a step leads to from places given. -/
def Step.follow (env : Environment) (places : List Place) : Step → Evaluated (List Place)
  | .mk axis test predicates => do
    let reached ← places.mapM fun p => do
      keepAll env (← env.candidates axis test p) predicates
    return Place.inDocumentOrder env.document reached.flatten

/-- The places that steps lead to, one step after the other. -/
def followSteps (env : Environment) (places : List Place) : List Step → Evaluated (List Place)
  | [] => return places
  | step :: rest => do followSteps env (← step.follow env places) rest

end

/-- The value of an expression at the root of the document. -/
def Environment.evaluate (env : Environment) (e : Expr) : Evaluated Value :=
  e.evaluate env ⟨.root env.document, 1, 1⟩

end XPathBench.XPath

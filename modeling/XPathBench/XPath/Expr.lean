import XPathBench.XPath.Token

/-!
Expressions.

* `BinaryOp`: operators with two operands
* `Expr`, `Step`: expressions and location steps
-/

namespace XPathBench.XPath

open Xml (PrefixedName)

/-- An operator with two operands. -/
inductive BinaryOp where
  | or
  | and
  | equal
  | notEqual
  | less
  | lessOrEqual
  | greater
  | greaterOrEqual
  | add
  | subtract
  | multiply
  | divide
  | remainder
  | union
deriving DecidableEq, Repr

/-- What a step asks of the nodes on its axis. -/
inductive Test where
  | node (test : NodeTest)
  | name (test : NameTest)
deriving DecidableEq, Repr

mutual

/-- An expression. -/
inductive Expr where
  | binary (op : BinaryOp) (left right : Expr)
  | negate (operand : Expr)
  | literal (value : String)
  | number (value : Float)
  | variable (name : PrefixedName)
  | call (function : PrefixedName) (arguments : List Expr)
  /-- The node that the expression is evaluated at. -/
  | contextNode
  /-- The root of the document. -/
  | root
  /-- The nodes that steps lead to. -/
  | path (start : Expr) (steps : List Step)
  /-- The nodes for which a predicate holds. -/
  | filter (nodes predicate : Expr)

/-- A location step. -/
inductive Step where
  | mk (axis : Axis) (test : Test) (predicates : List Expr)

end

end XPathBench.XPath

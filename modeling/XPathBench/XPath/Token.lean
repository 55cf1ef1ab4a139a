import XPathBench.Decimal.Layout
import XPathBench.Text.Printable
import XPathBench.Xml.Name

/-!
Tokens of queries. Abbreviations are spelled out when a query is cut into tokens, so the at sign,
the points and the double slash have no tokens of their own.

* `Axis`, `NodeTest`, `NameTest`: what location steps are made of
* `Token`: tokens; `Token.describe` shows one in an error message
-/

namespace XPathBench.XPath

open Xml (PrefixedName)

/-- A direction in which a step looks for nodes. -/
inductive Axis where
  | ancestor
  | ancestorOrSelf
  | attributes
  | child
  | descendant
  | descendantOrSelf
  | following
  | followingSibling
  | namespaces
  | parent
  | preceding
  | precedingSibling
  | self
deriving DecidableEq, Repr

namespace Axis

/-- All axes with their names in queries. -/
def names : List (String × Axis) :=
  [("ancestor", ancestor), ("ancestor-or-self", ancestorOrSelf), ("attribute", attributes),
   ("child", child), ("descendant", descendant), ("descendant-or-self", descendantOrSelf),
   ("following", following), ("following-sibling", followingSibling), ("namespace", namespaces),
   ("parent", parent), ("preceding", preceding), ("preceding-sibling", precedingSibling),
   ("self", self)]

/-- The axis in an error message. -/
def describe : Axis → String
  | ancestor => "Ancestor"
  | ancestorOrSelf => "AncestorOrSelf"
  | attributes => "Attribute"
  | child => "Child"
  | descendant => "Descendant"
  | descendantOrSelf => "DescendantOrSelf"
  | following => "Following"
  | followingSibling => "FollowingSibling"
  | namespaces => "Namespace"
  | parent => "Parent"
  | preceding => "Preceding"
  | precedingSibling => "PrecedingSibling"
  | self => "SelfAxis"

end Axis

/-- A test for the kind of a node. -/
inductive NodeTest where
  | node
  | text
  | comment
  | instruction (target : Option String)
deriving DecidableEq, Repr

/-- A test for the name of a node. Without a local name every name passes. -/
structure NameTest where
  prefixName : Option String
  localName : Option String
deriving DecidableEq, Repr

/-- An optional text in an error message. -/
def describeOption : Option String → String
  | some s => "Some(" ++ Text.exact s ++ ")"
  | none => "None"

/-- A test for the kind of a node in an error message. -/
def NodeTest.describe : NodeTest → String
  | node => "Node"
  | text => "Text"
  | comment => "Comment"
  | instruction target => "ProcessingInstruction(" ++ describeOption target ++ ")"

/-- A prefix and a local name in an error message. -/
def describeParts (prefixName : Option String) (localName : String) : String :=
  "\x7b prefix: " ++ describeOption prefixName ++ ", local_part: " ++ Text.exact localName ++
    " \x7d"

/-- A name in an error message. -/
def describeName (n : PrefixedName) : String :=
  "OwnedPrefixedName " ++ describeParts n.prefixName n.localName

/-- A test for the name of a node in an error message. -/
def NameTest.describe (t : NameTest) : String :=
  "NameTest " ++ describeParts t.prefixName (t.localName.getD "*")

/-- Numbers in error messages have an exponent when their leading digit stands below the fourth
place behind the point, or is worth ten to the sixteenth or more. -/
def messageLayout : Decimal.Layout where
  plainFrom := some (-4)
  plainBelow := some 16
  pointZero := true
  plusSign := false
  tie := .upward

/-- A token. -/
inductive Token where
  | and
  | or
  | remainder
  | divide
  | multiply
  | slash
  | leftParen
  | rightParen
  | leftBracket
  | rightBracket
  | plus
  | minus
  | pipe
  | equal
  | notEqual
  | less
  | lessOrEqual
  | greater
  | greaterOrEqual
  | comma
  | axis (value : Axis)
  | nodeTest (value : NodeTest)
  | nameTest (value : NameTest)
  | function (name : PrefixedName)
  | variable (name : PrefixedName)
  | literal (value : String)
  | number (value : Float)

/-- A token in an error message. -/
def Token.describe : Token → String
  | .and => "And"
  | .or => "Or"
  | .remainder => "Remainder"
  | .divide => "Divide"
  | .multiply => "Multiply"
  | .slash => "Slash"
  | .leftParen => "LeftParen"
  | .rightParen => "RightParen"
  | .leftBracket => "LeftBracket"
  | .rightBracket => "RightBracket"
  | .plus => "PlusSign"
  | .minus => "MinusSign"
  | .pipe => "Pipe"
  | .equal => "Equal"
  | .notEqual => "NotEqual"
  | .less => "LessThan"
  | .lessOrEqual => "LessThanOrEqual"
  | .greater => "GreaterThan"
  | .greaterOrEqual => "GreaterThanOrEqual"
  | .comma => "Comma"
  | .axis value => "Axis(" ++ value.describe ++ ")"
  | .nodeTest value => "NodeTest(" ++ value.describe ++ ")"
  | .nameTest value => "NameTest(" ++ value.describe ++ ")"
  | .function name => "Function(" ++ describeName name ++ ")"
  | .variable name => "Variable(" ++ describeName name ++ ")"
  | .literal value => "Literal(" ++ Text.exact value ++ ")"
  | .number value =>
    "Number(" ++ (if value.isInf then "inf" else messageLayout.write value) ++ ")"

end XPathBench.XPath

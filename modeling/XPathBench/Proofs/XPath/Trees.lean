import XPathBench.XPath.Expr
import XPathBench.XPath.Outline

/-!
# Expressions as trees

Expressions as the grammar of queries has them, with the tokens that they are written with. Location
paths and their steps are written in full or abbreviated; parentheses stand where an operand binds
less tightly than its place asks for.

* `Tree.Expr`, `Tree.Step`: expressions and location steps
* `Tree.Expr.tokens`: the tokens of an expression
* `Tree.Expr.type`: the type of its outermost construct
* `Spaced`: a text consists of tokens with white space between them
-/

namespace XPathBench.XPath

/-! ## Operators -/

namespace BinaryOp

/-- The operator as it is written. -/
def symbol : BinaryOp → List Char
  | or => "or".toList
  | and => "and".toList
  | equal => ['=']
  | notEqual => ['!', '=']
  | less => ['<']
  | lessOrEqual => ['<', '=']
  | greater => ['>']
  | greaterOrEqual => ['>', '=']
  | add => ['+']
  | subtract => ['-']
  | multiply => ['*']
  | divide => "div".toList
  | remainder => "mod".toList
  | union => ['|']

/-- The level of the grammar that the operator belongs to. Its left operand is of that level, and
its right one of the next. -/
def level : BinaryOp → Nat
  | or => 1
  | and => 2
  | equal | notEqual => 3
  | less | lessOrEqual | greater | greaterOrEqual => 4
  | add | subtract => 5
  | multiply | divide | remainder => 6
  | union => 8

/-- The type of what the operator computes. -/
def resultType : BinaryOp → ResultType
  | or | and | equal | notEqual | less | lessOrEqual | greater | greaterOrEqual => .boolean
  | add | subtract | multiply | divide | remainder => .number
  | union => .nodeSet

/-- The operator is written like a test for names. -/
def looksLikeTest : BinaryOp → Bool
  | or | and | multiply | divide | remainder => true
  | _ => false

end BinaryOp

namespace Tree

/-! ## Tokens with a text of their own -/

/-- A name without prefix, in the alphabet of outlines. -/
structure Word where
  text : List Char
  starts : text.head?.any Outline.isNameStart = true
  further : ∀ c ∈ text, Outline.isNameChar c = true

/-- A name with an optional prefix. -/
structure Name where
  prefixName : Option Word
  localName : Word

/-- The name as it is written. -/
def Name.text (n : Name) : List Char :=
  match n.prefixName with
  | some p => p.text ++ ':' :: n.localName.text
  | none => n.localName.text

/-- The words that test nodes for their kind before parentheses. -/
inductive Kind where
  | node
  | text
  | comment
  | instruction
deriving DecidableEq, Repr

/-- The word as it is written. -/
def Kind.word : Kind → List Char
  | node => "node".toList
  | text => "text".toList
  | comment => "comment".toList
  | instruction => "processing-instruction".toList

/-- The name of a function. It is not the word for a kind of nodes. -/
structure FunctionName where
  name : Name
  notKind : ∀ kind : Kind, name.text ≠ kind.word

/-- A text in quotes, which it does not hold. -/
structure Literal where
  quote : Char
  value : List Char
  isQuote : quote = '\'' ∨ quote = '"'
  fits : quote ∉ value

/-- The literal as it is written. -/
def Literal.text (l : Literal) : List Char := l.quote :: (l.value ++ [l.quote])

/-- Digits, perhaps with a point among them, before them or behind them. -/
structure Numeral where
  whole : List Char
  /-- The digits behind the point, if there is one. -/
  fraction : Option (List Char)
  digits : ∀ c ∈ whole ++ fraction.getD [], c.isDigit = true
  nonempty : whole ++ fraction.getD [] ≠ []

/-- The number as it is written. -/
def Numeral.text (n : Numeral) : List Char :=
  match n.fraction with
  | some fraction => n.whole ++ '.' :: fraction
  | none => n.whole

/-! ## Expressions -/

/-- The axis of a step as it is written. -/
inductive AxisSpecifier where
  | implied
  | sign
  | named (name : String) (axis : Axis) (known : (name, axis) ∈ Axis.names)

/-- The tokens of an axis. -/
def AxisSpecifier.tokens : AxisSpecifier → List (List Char)
  | implied => []
  | sign => [['@']]
  | named name _ _ => [name.toList, [':', ':']]

/-- What a step asks of the nodes on its axis. -/
inductive Test where
  | any
  | anyWith (prefixName : Word)
  | named (name : Name)
  | kind (kind : Kind)
  | instruction (target : Literal)

/-- The tokens of a test. -/
def Test.tokens : Test → List (List Char)
  | any => [['*']]
  | anyWith p => [p.text ++ [':', '*']]
  | named name => [name.text]
  | kind k => [k.word, ['('], [')']]
  | instruction target => [Kind.instruction.word, ['('], target.text, [')']]

/-- What stands between steps, and before the first one of a path that starts at the root. -/
inductive Slash where
  | single
  | double

/-- The slash as it is written. -/
def Slash.text : Slash → List Char
  | single => ['/']
  | double => ['/', '/']

mutual

/-- An expression. -/
inductive Expr where
  | binary (op : BinaryOp) (left right : Expr)
  | negate (operand : Expr)
  | literal (value : Literal)
  | number (value : Numeral)
  | variable (name : Name)
  | call (function : FunctionName) (arguments : List Expr)
  | parens (inner : Expr)
  | filter (base predicate : Expr)
  /-- A slash that stands alone. -/
  | root
  | relative (step : Step)
  | absolute (slash : Slash) (step : Step)
  | further (base : Expr) (slash : Slash) (step : Step)

/-- A location step. -/
inductive Step where
  | self
  | parent
  | located (axis : AxisSpecifier) (test : Test) (predicates : List Expr)

end

namespace Expr

/-- The type of the outermost construct. -/
def type : Expr → ResultType
  | binary op _ _ => op.resultType
  | negate _ => .number
  | literal _ => .string
  | number _ => .number
  | .variable _ => .any
  | call function _ => Outline.functionType function.name.text
  | parens inner => inner.type
  | filter _ _ | root | relative _ | absolute _ _ | further _ _ _ => .nodeSet

/-- The level of the grammar that an expression belongs to. -/
def level : Expr → Nat
  | binary op _ _ => op.level
  | negate _ => 7
  | root | relative _ | absolute _ _ | further _ _ _ => 9
  | filter _ _ => 10
  | _ => 11

/-- The expression is a slash that stands alone. -/
def isRoot : Expr → Bool
  | root => true
  | _ => false

/-- An operand needs parentheses: it is of a lower level than its place, or a slash that stands
alone where something follows that could be read as a step. -/
def needsParens (level : Nat) (stepAhead : Bool) (e : Expr) : Bool :=
  decide (e.level < level) || (stepAhead && e.isRoot)

end Expr

/-- An operand with its parentheses, if it needs any. What follows is not ahead of what is in them.
-/
def enclose (needed : Bool) (tokens : Bool → List (List Char)) (stepAhead : Bool) :
    List (List Char) :=
  if needed then ['('] :: (tokens false ++ [[')']]) else tokens stepAhead

mutual

/-- The tokens of an expression; `stepAhead` tells whether an operator follows that looks like a
test. A slash is put in parentheses before such an operator: if it is the left operand, or, with
`edge`, also if it is only the end of the left operand. -/
def Expr.tokens (edge : Bool) : Expr → Bool → List (List Char)
  | .binary op left right, stepAhead =>
    enclose (left.needsParens op.level op.looksLikeTest) (left.tokens edge) op.looksLikeTest ++
      op.symbol ::
        enclose (right.needsParens (op.level + 1) (edge && stepAhead)) (right.tokens edge)
        (edge && stepAhead)
  | .negate operand, stepAhead =>
    ['-'] :: enclose (operand.needsParens 7 (edge && stepAhead)) (operand.tokens edge)
      (edge && stepAhead)
  | .literal value, _ => [value.text]
  | .number value, _ => [value.text]
  | .variable name, _ => ['$' :: name.text]
  | .call function arguments, _ =>
    function.name.text :: ['('] :: (argumentTokens edge arguments ++ [[')']])
  | .parens inner, _ => ['('] :: (inner.tokens edge false ++ [[')']])
  | .filter base predicate, _ =>
    enclose (base.needsParens 10 false) (base.tokens edge) false ++
      ['['] :: (predicate.tokens edge false ++ [[']']])
  | .root, _ => [['/']]
  | .relative step, _ => step.tokens edge
  | .absolute slash step, _ => slash.text :: step.tokens edge
  | .further base slash step, _ =>
    enclose (base.needsParens 9 true) (base.tokens edge) false ++ slash.text :: step.tokens edge

/-- The tokens of a step. -/
def Step.tokens (edge : Bool) : Step → List (List Char)
  | .self => [['.']]
  | .parent => [['.', '.']]
  | .located axis test predicates =>
    axis.tokens ++ test.tokens ++ predicateTokens edge predicates

/-- The tokens of the arguments of a function. -/
def argumentTokens (edge : Bool) : List Expr → List (List Char)
  | [] => []
  | e :: rest => e.tokens edge false ++ laterTokens edge rest

/-- The tokens of the arguments behind the first one. -/
def laterTokens (edge : Bool) : List Expr → List (List Char)
  | [] => []
  | e :: rest => [','] :: (e.tokens edge false ++ laterTokens edge rest)

/-- The tokens of predicates. -/
def predicateTokens (edge : Bool) : List Expr → List (List Char)
  | [] => []
  | e :: rest => ['['] :: (e.tokens edge false ++ [']'] :: predicateTokens edge rest)

end

end Tree

/-! ## Texts -/

/-- No token goes on with the text. -/
def BlankAhead (text : List Char) : Prop := ∀ c ∈ text.head?, Text.isBlank c = true

/-- A text consists of tokens, with white space between them, and perhaps before and behind them. -/
inductive Spaced : List (List Char) → List Char → Prop where
  | nil {space : List Char} : (∀ c ∈ space, Text.isBlank c = true) → Spaced [] space
  | cons {space token rest : List Char} {tokens : List (List Char)} :
      (∀ c ∈ space, Text.isBlank c = true) → BlankAhead rest → Spaced tokens rest →
        Spaced (token :: tokens) (space ++ (token ++ rest))

end XPathBench.XPath

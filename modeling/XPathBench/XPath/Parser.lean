import XPathBench.XPath.Expr
import XPathBench.XPath.Lexer

/-!
Parsing queries by recursive descent. A rule answers with an expression, or with nothing if none
starts at the next token, or fails. A rule that answers with nothing may still have taken tokens: an
axis without a test, or an empty pair of parentheses. The rules tried after it go on behind them.

* `Parser`: rules over the tokens that are left
* `Parser.expression`: the rule for expressions
* `Expr.parse`: the expression that a query denotes
-/

namespace XPathBench.XPath

/-- Why a query is no expression. -/
inductive ParseError where
  | unexpectedToken (token : Token)
  | lexical (error : LexicalError)
  | ranOutOfInput
  | rightOperandMissing
  | emptyPredicate
  | trailingSlash
  | argumentMissing
  | extraTokens

/-- The error in words. -/
def ParseError.message : ParseError → String
  | unexpectedToken token => "unexpected token: " ++ token.describe
  | lexical error => "tokenizer error: " ++ error.describe
  | ranOutOfInput => "RanOutOfInput"
  | rightOperandMissing => "RightHandSideExpressionMissing"
  | emptyPredicate => "EmptyPredicate"
  | trailingSlash => "TrailingSlash"
  | argumentMissing => "ArgumentMissing"
  | extraTokens => "ExtraUnparsedTokens"

/-- A rule: it takes tokens from those left. -/
abbrev Parser (α : Type) := StateT TokenStream (Except ParseError) α

namespace Parser

variable {α : Type}

/-- The value that the next token has for a rule; a token with a value is taken. A place that starts
no lexeme has none. -/
def next? (value : Token → Option α) : Parser (Option α) := do
  match (← get).tokens with
  | token :: rest => match value token with
    | some v => do
      modify fun s => { s with tokens := rest }
      return some v
    | none => return none
  | [] => return none

/-- Takes the next token, which has to be the one expected. -/
def take (expected : Token → Bool) : Parser Unit := do
  let s ← get
  match s.tokens, s.error with
  | token :: rest, _ =>
    if expected token then set { s with tokens := rest } else throw (.unexpectedToken token)
  | [], some error => throw (.lexical error)
  | [], none => throw .ranOutOfInput

/-- The expression of a rule, which has to find one. -/
def require (error : ParseError) (rule : Parser (Option α)) : Parser α := do
  match ← rule with
  | some e => return e
  | none => throw error

/-- The first of some rules that finds something. What the rules before it have taken stays taken.
-/
def firstOf : List (Parser (Option α)) → Parser (Option α)
  | [] => return none
  | rule :: others => do
    match ← rule with
    | some found => return some found
    | none => firstOf others

/-- Repeats a rule as long as it finds something, at most `rounds` times. -/
def many (rule : Parser (Option α)) : Nat → Parser (List α)
  | 0 => return []
  | rounds + 1 => do
    match ← rule with
    | some first => return first :: (← many rule rounds)
    | none => return []

/-- Repeats a rule that takes a token whenever it finds something. -/
def manyLeft (rule : Parser (Option α)) : Parser (List α) := do
  many rule (← get).tokens.length

/-! ## Operators -/

/-- Operands with operators between them, grouped from the left. -/
def chain (operator : Token → Option BinaryOp) (operand : Parser (Option Expr)) :
    Parser (Option Expr) := do
  match ← operand with
  | none => return none
  | some first =>
    let others ← manyLeft do
      match ← next? operator with
      | some op => return some (op, ← require .rightOperandMissing operand)
      | none => return none
    return some (others.foldl (fun left (op, right) => .binary op left right) first)

/-- The operators with two operands, one level of binding after the other, the loosest first. -/
def levels : List (Token → Option BinaryOp) :=
  [fun | .or => some .or | _ => none,
   fun | .and => some .and | _ => none,
   fun | .equal => some .equal | .notEqual => some .notEqual | _ => none,
   fun
    | .less => some .less
    | .lessOrEqual => some .lessOrEqual
    | .greater => some .greater
    | .greaterOrEqual => some .greaterOrEqual
    | _ => none,
   fun | .plus => some .add | .minus => some .subtract | _ => none,
   fun
    | .multiply => some .multiply
    | .divide => some .divide
    | .remainder => some .remainder
    | _ => none]

/-- A union, or a minus before another such operand; at most `signs` minus signs are taken. -/
def signed (union : Parser (Option Expr)) : Nat → Parser (Option Expr)
  | 0 => return none
  | signs + 1 => do
    match ← union with
    | some e => return some e
    | none =>
      match ← next? (fun | .minus => some () | _ => none) with
      | some _ => return some (.negate (← require .rightOperandMissing (signed union signs)))
      | none => return none

/-! ## Paths -/

/-- A predicate in brackets. -/
def predicate (expression : Parser (Option Expr)) : Parser (Option Expr) := do
  match ← next? (fun | .leftBracket => some () | _ => none) with
  | none => return none
  | some _ =>
    let e ← require .emptyPredicate expression
    take fun | .rightBracket => true | _ => false
    return some e

/-- A location step. An axis that is read stays read even if no test follows. -/
def step (expression : Parser (Option Expr)) : Parser (Option Step) := do
  let axis ← next? fun | .axis value => some value | _ => none
  let test ← next? fun
    | .nodeTest value => some (Test.node value)
    | .nameTest value => some (Test.name value)
    | _ => none
  match test with
  | none => return none
  | some test => return some (.mk (axis.getD .child) test (← manyLeft (predicate expression)))

/-- The slash between steps. -/
def slash : Parser (Option Unit) := next? fun | .slash => some () | _ => none

/-- Steps with slashes between them. -/
def relativePath (expression : Parser (Option Expr)) : Parser (Option (List Step)) := do
  match ← step expression with
  | none => return none
  | some first =>
    let others ← manyLeft do
      match ← slash with
      | some _ => return some (← require .trailingSlash (step expression))
      | none => return none
    return some (first :: others)

/-- The arguments of a call, up to the closing parenthesis. -/
def arguments (expression : Parser (Option Expr)) : Parser (List Expr) := do
  take fun | .leftParen => true | _ => false
  let found ← do
    match ← expression with
    | none => pure []
    | some first =>
      let others ← manyLeft do
        match ← next? (fun | .comma => some () | _ => none) with
        | some _ => return some (← require .argumentMissing expression)
        | none => return none
      pure (first :: others)
  take fun | .rightParen => true | _ => false
  return found

/-- An expression in parentheses. An empty pair of parentheses is taken and denotes nothing. -/
def group (expression : Parser (Option Expr)) : Parser (Option Expr) := do
  match ← next? (fun | .leftParen => some () | _ => none) with
  | none => return none
  | some _ =>
    let e ← expression
    take fun | .rightParen => true | _ => false
    return e

/-- A call of a function. -/
def call (expression : Parser (Option Expr)) : Parser (Option Expr) := do
  match ← next? (fun | .function name => some name | _ => none) with
  | none => return none
  | some name => return some (.call name (← arguments expression))

/-- A variable, group, literal, number or call. Behind an empty pair of parentheses there may still
be one of the last three. -/
def primary (expression : Parser (Option Expr)) : Parser (Option Expr) :=
  firstOf
    [next? fun | .variable name => some (.variable name) | _ => none,
     group expression,
     next? fun | .literal value => some (.literal value) | _ => none,
     next? fun | .number value => some (.number value) | _ => none,
     call expression]

/-- A primary expression with predicates, and perhaps steps that start from its nodes. -/
def filtered (expression : Parser (Option Expr)) : Parser (Option Expr) := do
  match ← primary expression with
  | none => return none
  | some e =>
    let predicates ← manyLeft (predicate expression)
    let nodes := predicates.foldl Expr.filter e
    match ← slash with
    | some _ => return some (.path nodes (← require .trailingSlash (relativePath expression)))
    | none => return some nodes

/-- A path from the root, which may have no steps. -/
def absolutePath (expression : Parser (Option Expr)) : Parser (Option Expr) := do
  match ← slash with
  | some _ =>
    match ← relativePath expression with
    | some steps => return some (.path .root steps)
    | none => return some .root
  | none => return none

/-- A path from the context node, from the root, or from a primary expression. -/
def path (expression : Parser (Option Expr)) : Parser (Option Expr) :=
  firstOf
    [(·.map (.path .contextNode)) <$> relativePath expression,
     absolutePath expression,
     filtered expression]

/-- Expressions with at most `depth` of them inside each other. -/
def expressionTo : Nat → Parser (Option Expr)
  | 0 => return none
  | depth + 1 => do
    let signs := (← get).tokens.length + 1
    let union := chain (fun | .pipe => some .union | _ => none) (path (expressionTo depth))
    levels.foldr chain (signed union signs)

/-- Expressions. One inside another begins behind a token of the outer one, so the number of tokens
bounds the depth. -/
def expression : Parser (Option Expr) := do
  expressionTo ((← get).tokens.length + 1)

end Parser

/-- The expression that a query denotes; nothing if the query has no tokens that denote one. -/
def Expr.parse (query : String) : Except ParseError (Option Expr) := do
  let (found, left) ← Parser.expression.run (TokenStream.ofText query)
  if left.tokens.isEmpty && left.error.isNone then return found
  else throw .extraTokens

end XPathBench.XPath

import XPathBench.ResultType
import XPathBench.Text.Letter

/-!
The outline of a query and the result type that it announces. An outline sees only literals,
numbers, names, brackets and operators; it does not know the grammar of queries. The type is that of
the operator that binds loosest outside all brackets, or of the single operand if there is none.

* `Piece`, `Outline.ofText?`: the pieces of a query
* `announcedType`: the type announced for a query
-/

namespace XPathBench.XPath

/-- An operator as far as types are concerned. -/
inductive OperatorClass where
  | or
  | and
  | equality
  | relational
  | additive
  | multiplicative
  | negation
  | union
  | slash
deriving DecidableEq, Repr

namespace OperatorClass

/-- How tightly an operator binds. -/
def precedence : OperatorClass → Nat
  | or => 1
  | and => 2
  | equality => 3
  | relational => 4
  | additive => 5
  | multiplicative => 6
  | negation => 7
  | union => 8
  | slash => 9

/-- The type of what an operator computes. -/
def resultType : OperatorClass → ResultType
  | or | and | equality | relational => .boolean
  | additive | multiplicative | negation => .number
  | union | slash => .nodeSet

end OperatorClass

/-- What a piece of an outline is. -/
inductive Shape where
  | literal
  | number
  | variable
  | name
  | opening
  | closing
  | operator (kind : OperatorClass)
  /-- A point, a comma, an at sign, a double colon, or a star that stands for a name. -/
  | mark
deriving DecidableEq, Repr

/-- A piece of a query with its text. -/
structure Piece where
  shape : Shape
  text : List Char
deriving DecidableEq, Repr

namespace Outline

/-- A character that may start a name. -/
def isNameStart (c : Char) : Bool := Text.isLetter c || c == '_'

/-- A character that may go on with a name. -/
def isNameChar (c : Char) : Bool :=
  Text.isLetter c || Text.isNumeral c || c == '_' || c == '-' || c == '.'

/-- A character that may stand in a number. -/
def isNumberChar (c : Char) : Bool := c.isDigit || c == '.'

/-- The length of the name that a text starts with: a run of name characters, then perhaps a colon
with a star or with another run that starts like a name. -/
def nameWidth (cs : List Char) : Nat :=
  let first := (cs.takeWhile isNameChar).length
  match cs.drop first with
  | ':' :: '*' :: _ => first + 2
  | ':' :: c :: rest =>
    if isNameStart c then first + 1 + ((c :: rest).takeWhile isNameChar).length else first
  | _ => first

/-- The shape of the word at the start of an operand or, where an operator may stand, of the
operator that it names. -/
def wordShape (operatorMayStand : Bool) (word : List Char) : Shape :=
  if operatorMayStand then
    if word = "or".toList then .operator .or
    else if word = "and".toList then .operator .and
    else if word = "div".toList || word = "mod".toList then .operator .multiplicative
    else .name
  else .name

/-- The piece that starts with `c`: its shape, and how many characters of `rest` belong to it. -/
def shapeAt? (operatorMayStand : Bool) (c : Char) (rest : List Char) : Option (Shape × Nat) :=
  let followedBy (d : Char) : Bool := rest.head? == some d
  match c with
  | '\'' | '"' => (rest.idxOf? c).map fun i => (.literal, i + 1)
  | '.' =>
    if rest.head?.any Char.isDigit then some (.number, (rest.takeWhile isNumberChar).length)
    else some (.mark, if followedBy '.' then 1 else 0)
  | '$' => if nameWidth rest = 0 then none else some (.variable, nameWidth rest)
  | '(' | '[' => some (.opening, 0)
  | ')' | ']' => some (.closing, 0)
  | ',' | '@' => some (.mark, 0)
  | ':' => if followedBy ':' then some (.mark, 1) else none
  | '/' => some (.operator .slash, if followedBy '/' then 1 else 0)
  | '|' => some (.operator .union, 0)
  | '+' => some (.operator .additive, 0)
  | '-' => some (.operator (if operatorMayStand then .additive else .negation), 0)
  | '=' => some (.operator .equality, 0)
  | '!' => if followedBy '=' then some (.operator .equality, 1) else none
  | '<' | '>' => some (.operator .relational, if followedBy '=' then 1 else 0)
  | '*' => some (if operatorMayStand then .operator .multiplicative else .mark, 0)
  | _ =>
    if c.isDigit then some (.number, (rest.takeWhile isNumberChar).length)
    else if isNameStart c then
      let width := nameWidth (c :: rest)
      some (wordShape operatorMayStand ((c :: rest).take width), width - 1)
    else none

/-- A piece behind which an operator may stand: one that can end an operand. -/
def endsOperand (p : Piece) : Bool :=
  match p.shape with
  | .operator _ | .opening => false
  | .mark => !(p.text == ['@'] || p.text == [':', ':'] || p.text == [','])
  | _ => true

/-- The pieces of a text behind its first `skip` characters, which belong to a piece already. -/
def piecesFrom? (operatorMayStand : Bool) : Nat → List Char → Option (List Piece)
  | _, [] => some []
  | skip + 1, _ :: rest => piecesFrom? operatorMayStand skip rest
  | 0, c :: rest =>
    if Text.isBlank c then piecesFrom? operatorMayStand 0 rest
    else match shapeAt? operatorMayStand c rest with
      | none => none
      | some (shape, width) =>
        let piece : Piece := ⟨shape, c :: rest.take width⟩
        (piecesFrom? (endsOperand piece) width rest).map (piece :: ·)

/-- The pieces of a text, if all of it consists of pieces and white space. -/
def ofText? (text : List Char) : Option (List Piece) := piecesFrom? false 0 text

/-- The operator that binds loosest outside brackets, the first of them if there are several;
`depth` brackets are open, and `found` is the loosest so far. -/
def loosestFrom (depth : Nat) (found : Option OperatorClass) : List Piece → Option OperatorClass
  | [] => found
  | p :: rest => match p.shape with
    | .opening => loosestFrom (depth + 1) found rest
    | .closing => loosestFrom (depth - 1) found rest
    | .operator kind =>
      if depth = 0 && found.all (fun f => kind.precedence < f.precedence) then
        loosestFrom depth (some kind) rest
      else loosestFrom depth found rest
    | _ => loosestFrom depth found rest

/-- The operator that binds loosest outside brackets, the first of them if there are several. -/
def loosest? (pieces : List Piece) : Option OperatorClass := loosestFrom 0 none pieces

/-- Of pieces inside `depth` brackets, the last one closes the outermost of these and no piece
before it does. -/
def closesAtEnd (depth : Nat) : List Piece → Bool
  | [] => false
  | p :: rest => match p.shape with
    | .opening => closesAtEnd (depth + 1) rest
    | .closing => if depth ≤ 1 then rest.isEmpty else closesAtEnd (depth - 1) rest
    | _ => closesAtEnd depth rest

/-- The pieces form one group in parentheses. -/
def isGroup : List Piece → Bool
  | p :: rest => p.shape == .opening && p.text == ['('] && closesAtEnd 1 rest
  | [] => false

/-- Names that stand before parentheses without being functions. -/
def isNodeType (name : List Char) : Bool :=
  ["node", "text", "comment", "processing-instruction"].contains (String.ofList name)

/-- The type that a function returns, by its name. -/
def functionType (name : List Char) : ResultType :=
  let name := String.ofList name
  if ["last", "position", "count", "string-length", "number", "sum", "floor", "ceiling",
    "round"].contains name then .number
  else if ["local-name", "namespace-uri", "name", "string", "concat", "substring-before",
    "substring-after", "substring", "normalize-space", "translate"].contains name then .string
  else if ["starts-with", "contains", "boolean", "not", "true", "false", "lang"].contains name then
    .boolean
  else if name = "id" then .nodeSet
  else .any

/-- The pieces are a group in parentheses whose last piece is a parenthesis. -/
def isParenthesized (pieces : List Piece) : Bool :=
  isGroup pieces && pieces.getLast?.any fun p => p.text == [')']

/-- The type of an operand that stands alone and is not in parentheses. -/
def operandType : List Piece → ResultType
  | [p] => match p.shape with
    | .literal => .string
    | .number => .number
    | .variable => .any
    | _ => .nodeSet
  | p :: rest =>
    if p.shape == .name && !isNodeType p.text && isGroup rest then functionType p.text else .nodeSet
  | [] => .nodeSet

/-- The type that pieces announce. A group in parentheses has the type of what it holds. -/
def typeOf (pieces : List Piece) : ResultType :=
  if pieces.isEmpty then .any
  else match loosest? pieces with
    | some kind => kind.resultType
    | none => if isParenthesized pieces then typeOf pieces.tail.dropLast else operandType pieces
termination_by pieces.length
decreasing_by
  cases pieces with
  | nil => simp at *
  | cons p rest => simp only [List.tail_cons, List.length_dropLast, List.length_cons]; omega

end Outline

/-- The type that a query announces. A query without outline announces no type. -/
def announcedType (query : String) : ResultType :=
  ((Outline.ofText? query.toList).map Outline.typeOf).getD .any

end XPathBench.XPath

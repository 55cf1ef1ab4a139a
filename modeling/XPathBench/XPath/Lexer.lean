import XPathBench.Decimal.Read
import XPathBench.XPath.Token

/-!
Cutting a query into tokens. Whether a word or a star is an operator depends on what stands before
it.

* `lexemeAt`: the tokens of the lexeme that a text starts with
* `TokenStream.ofText`: the tokens of a query, up to the first place that starts no lexeme
-/

namespace XPathBench.XPath

open Xml (leadingNcName? leadingQName? PrefixedName)

/-- Why no lexeme starts at a place. -/
inductive LexicalError where
  | mismatchedQuotes
  | unknownToken
  | expectedName
deriving DecidableEq, Repr

/-- The error in words. -/
def LexicalError.describe : LexicalError → String
  | mismatchedQuotes => "MismatchedQuoteCharacters"
  | unknownToken => "UnableToCreateToken"
  | expectedName => "ExpectedPrefixedName"

/-- What is found at a place: tokens, the number of characters that they take, and whether an
operator is expected behind them. -/
structure Lexeme where
  tokens : List Token
  width : Nat
  operatorNext : Bool

namespace Lexeme

/-- A fixed text, if it stands at the start of a text. -/
def ofFixed? (cs : List Char) (table : List (String × List Token × Bool)) : Option Lexeme :=
  table.findSome? fun (text, tokens, operatorNext) =>
    if text.toList.isPrefixOf cs then some ⟨tokens, text.length, operatorNext⟩ else none

/-- Symbols, the longer ones first. -/
def symbols : List (String × List Token × Bool) :=
  [("<=", [.lessOrEqual], false), (">=", [.greaterOrEqual], false), ("!=", [.notEqual], false),
   ("//", [.slash, .axis .descendantOrSelf, .nodeTest .node, .slash], false),
   ("..", [.axis .parent, .nodeTest .node], true),
   ("/", [.slash], false), ("(", [.leftParen], false), (")", [.rightParen], true),
   ("[", [.leftBracket], false), ("]", [.rightBracket], true), ("@", [.axis .attributes], false),
   ("+", [.plus], false), ("-", [.minus], false), ("|", [.pipe], false), ("=", [.equal], false),
   ("<", [.less], false), (">", [.greater], false), (",", [.comma], true)]

/-- Operators that are words or look like a name test. A word need not end where its operator does.
-/
def wordOperators : List (String × List Token × Bool) :=
  [("and", [.and], false), ("or", [.or], false), ("mod", [.remainder], false),
   ("div", [.divide], false), ("*", [.multiply], false)]

/-- Axis names with their colons. -/
def axisNames : List (String × List Token × Bool) :=
  Axis.names.map fun (name, value) => (name ++ "::", [.axis value], false)

/-- Tests for the kind of a node. -/
def nodeTests : List (String × List Token × Bool) :=
  [("comment()", [.nodeTest .comment], true), ("text()", [.nodeTest .text], true),
   ("processing-instruction()", [.nodeTest (.instruction none)], true),
   ("node()", [.nodeTest .node], true)]

/-- A text between quotes and the number of characters with the quotes, if the text starts with a
quote and the quote comes again. -/
def quoted? : List Char → Option (String × Nat)
  | [] => none
  | quote :: rest =>
    if quote = '\'' || quote = '"' then
      (rest.idxOf? quote).map fun i => (String.ofList (rest.take i), i + 2)
    else none

/-- Digits with an optional point and further digits, or a point with digits behind it. -/
def number? (cs : List Char) : Option Lexeme :=
  let whole := cs.takeWhile Char.isDigit
  match cs.drop whole.length with
  | '.' :: rest =>
    let fraction := rest.takeWhile Char.isDigit
    if whole = [] ∧ fraction = [] then none
    else
      let width := whole.length + 1 + fraction.length
      some ⟨[.number (Decimal.ofDigits whole fraction 0)], width, true⟩
  | _ =>
    if whole = [] then none
    else some ⟨[.number (Decimal.ofDigits whole [] 0)], whole.length, true⟩

/-- A test for processing instructions with a target. -/
def instructionTest? (cs : List Char) : Option Lexeme :=
  let start := "processing-instruction(".toList
  if start.isPrefixOf cs then
    match quoted? (cs.drop start.length) with
    | some (target, width) =>
      if cs[start.length + width]? = some ')' then
        some ⟨[.nodeTest (.instruction (some target))], start.length + width + 1, true⟩
      else none
    | none => none
  else none

/-- The name of a function: a name directly before a parenthesis. -/
def function? (cs : List Char) : Option Lexeme :=
  match leadingQName? cs with
  | some name =>
    if cs[name.width]? = some '(' then some ⟨[.function name], name.width, true⟩ else none
  | none => none

/-- A test for names: a star, a prefix with a star, or a name. -/
def nameTest? (cs : List Char) : Option Lexeme :=
  match cs with
  | '*' :: _ => some ⟨[.nameTest ⟨none, none⟩], 1, true⟩
  | _ => match leadingNcName? cs with
    | none => none
    | some first => match cs.drop first.length with
      | ':' :: '*' :: _ =>
        some ⟨[.nameTest ⟨some (String.ofList first), none⟩], first.length + 2, true⟩
      | _ => (leadingQName? cs).map fun name =>
        ⟨[.nameTest ⟨name.prefixName, some name.localName⟩], name.width, true⟩

end Lexeme

open Lexeme in
/-- The lexeme that a text starts with. Where an operator is expected, words that name operators are
tried before names. -/
def lexemeAt (operatorExpected : Bool) (cs : List Char) : Except LexicalError Lexeme :=
  match ofFixed? cs symbols with
  | some lexeme => .ok lexeme
  | none => match cs with
    | '\'' :: _ | '"' :: _ => match quoted? cs with
      | some (text, width) => .ok ⟨[.literal text], width, true⟩
      | none => .error .mismatchedQuotes
    | '$' :: rest => match leadingQName? rest with
      | some name => .ok ⟨[.variable name], name.width + 1, true⟩
      | none => .error .expectedName
    | _ =>
      let found := (number? cs)
        |>.or (ofFixed? cs [(".", [.axis .self, .nodeTest .node], true)])
        |>.or (if operatorExpected then ofFixed? cs wordOperators else none)
        |>.or (ofFixed? cs axisNames)
        |>.or (ofFixed? cs nodeTests)
        |>.or (instructionTest? cs)
        |>.or (function? cs)
        |>.or (nameTest? cs)
      found.elim (.error .unknownToken) .ok

/-- The tokens of a query, and the error at which they stop before its end. -/
structure TokenStream where
  tokens : List Token
  error : Option LexicalError

namespace TokenStream

/-- The tokens of a text behind its first `skip` characters, which belong to a lexeme already. -/
def ofTextFrom (operatorExpected : Bool) : Nat → List Char → TokenStream
  | _, [] => ⟨[], none⟩
  | skip + 1, _ :: rest => ofTextFrom operatorExpected skip rest
  | 0, c :: rest =>
    if Text.isXmlBlank c then ofTextFrom operatorExpected 0 rest
    else match lexemeAt operatorExpected (c :: rest) with
      | .error e => ⟨[], some e⟩
      | .ok lexeme =>
        let later := ofTextFrom lexeme.operatorNext (lexeme.width - 1) rest
        ⟨lexeme.tokens ++ later.tokens, later.error⟩

/-- The tokens of a query. -/
def ofText (query : String) : TokenStream := ofTextFrom false 0 query.toList

end TokenStream

end XPathBench.XPath

import XPathBench.XPath.Evaluate
import XPathBench.XPath.Outline
import XPathBench.XPath.Parser
import XPathBench.Xml.Parse

/-!
The engine for XPath over XML documents. The root of the document is always the context node, and
prefixes and variables are bound once for all queries.

* `Bindings`: the bindings of an engine
* `Xml.Document.load`, `Query.compile`, `Query.evaluate`: its three operations
* `Place.kind`, `Value.display`, `Value.nodes?`: what it tells of results
* `engine`: all of it as an engine
-/

namespace XPathBench

/-- The failure kind of a document that cannot be read. -/
def xmlSyntaxKind : String := "XmlSyntaxError"

/-- The failure kind of a query that cannot be read. -/
def xpathSyntaxKind : String := "XPathSyntaxError"

/-- The failure kind of a query without content. -/
def emptyExpressionKind : String := "EmptyExpression"

/-- The failure kind of a query that has no value. -/
def evaluationKind : String := "XPathEvaluationError"

/-- A document, or the failure with the position where reading it ended. -/
def Xml.Document.load (text : String) : Except EngineFailure Xml.Document :=
  match Xml.Document.parse text with
  | .ok document => .ok document
  | .error e => .error ⟨xmlSyntaxKind, e.message, some (.ofOffset text e.offset), [], none⟩

namespace XPath

/-- A compiled query. -/
structure Query where
  expr : Expr
  /-- The type that the query announces. -/
  declared : ResultType

namespace Query

/-- The failure of a query without content. -/
def nothingToCompile : EngineFailure := .plain emptyExpressionKind "the XPath expression is empty"

/-- The query with a text. A text of blanks has no content, and neither has one whose parts denote
nothing. -/
def compile (text : String) : Except EngineFailure Query :=
  if Text.allBlank text then .error nothingToCompile
  else match Expr.parse text with
    | .ok (some expr) => .ok ⟨expr, announcedType text⟩
    | .ok none => .error nothingToCompile
    | .error e => .error (.plain xpathSyntaxKind e.message)

/-- The value of a query on a document. -/
def evaluate (bindings : Bindings) (query : Query) (document : Xml.Document) :
    Attempt EngineFailure Value :=
  match (Environment.mk bindings document).evaluate query.expr with
  | .ok value => .ok value
  | .error (.failure e) => .error (.failure (.plain evaluationKind e.message))
  | .error (.crash payload) => .error (.crash payload)

end Query

/-- The kind of a place. -/
def Place.kind : Place → NodeKind
  | root _ => .root
  | node _ _ (.element _ _) => .element
  | node _ _ (.text _) => .text
  | node _ _ (.comment _) => .comment
  | node _ _ (.instruction _ _) => .instruction
  | attr _ _ _ => .attr
  | binding _ _ _ => .namespaceBinding

/-- A value in one line. -/
def Value.display : Value → String
  | boolean b => booleanText b
  | number x => Decimal.resultNumber x
  | string s => s
  | nodeSet places => s!"node-set of {places.length} nodes"

variable {m : Type → Type} [Monad m]

/-- A place as a node of a result. -/
def Place.raw (p : Place) : RawNode m where
  kind := p.kind
  subtree indent := return .ok (p.pretty indent.margin)
  outer := return .ok p.markup

/-- The places of a node-set as results list them: in document order, each once. -/
def Value.nodes? (document : Xml.Document) : Value → Option (List Place)
  | nodeSet places => some (Place.inDocumentOrder document places)
  | _ => none

/-- A value on a document as a result. It answers for its own shape only. -/
def Value.raw (document : Xml.Document) (v : Value) : RawResult m where
  text := match v with
    | string s => some s
    | _ => none
  boolean := match v with
    | boolean b => some b
    | _ => none
  number := match v with
    | number x => some x
    | _ => none
  nodes := (v.nodes? document).map fun places => places.map Place.raw
  display := v.display

/-- The engine with the given bindings, and the backtraces of its failures. -/
def engine (bindings : Bindings) (backtraces : Backtraces := .none) :
    Engine m Xml.Document Query where
  parse text :=
    return (Xml.Document.load text).mapError fun f => .failure (f.raised (backtraces .parsing))
  compile text :=
    return (Query.compile text).mapError fun f => .failure (f.raised (backtraces .compiling))
  declared := Query.declared
  evaluate query document :=
    let attempt := (query.evaluate bindings document).map (Value.raw document)
    return attempt.mapError (.raised (backtraces .evaluating))

end XPath

end XPathBench

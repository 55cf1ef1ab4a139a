import XPathBench.Diagnostic
import XPathBench.Duration
import XPathBench.Decimal.Layout
import XPathBench.ResultType
import XPathBench.Text.Literal

/-!
Values of successful runs and the text block that reports them.

* `NodeKind`, `NodeBlock`: a selected node as its kind and markup
* `ResultValue`: a value by its runtime type
* `ResultValue.report`: the text block of a success
-/

namespace XPathBench

/-- The kind of a selected node. -/
inductive NodeKind where
  | root
  | element
  | attr
  | text
  | comment
  | instruction
  | namespaceBinding
  | other
deriving DecidableEq, Repr

namespace NodeKind

/-- The name of a kind. -/
def name : NodeKind → String
  | root => "Root"
  | element => "Element"
  | attr => "Attribute"
  | text => "Text"
  | comment => "Comment"
  | instruction => "ProcessingInstruction"
  | namespaceBinding => "Namespace"
  | other => "Other"

/-- Nodes of this kind are shown with everything below them, laid out afresh. -/
def hasSubtree : NodeKind → Bool
  | root | element => true
  | _ => false

end NodeKind

/-- A selected node: its kind and its markup. -/
structure NodeBlock where
  kind : NodeKind
  markup : String
deriving DecidableEq, Repr

/-- The line above a node's markup. -/
def NodeBlock.tag (b : NodeBlock) : String := s!"[NodeType.{b.kind.name}]"

/-- The value of a successful run. -/
inductive ResultValue where
  | text (value : String)
  | boolean (value : Bool)
  | number (value : Float)
  | nodeSet (blocks : List NodeBlock)
  /-- A value of no known shape, by its own text. -/
  | unrecognized (value : String)

namespace ResultValue

/-- The type of a value. -/
def runtimeType : ResultValue → RuntimeType
  | text _ => .string
  | boolean _ => .boolean
  | number _ => .number
  | nodeSet _ => .nodeSet
  | unrecognized _ => .unknown

/-- What the first line of the report says of the value. -/
def headline : ResultValue → String
  | text value => "\x7bLength=" ++ toString value.length ++ "\x7d"
  | boolean value => if value then "true" else "false"
  | number value => Decimal.resultNumber value
  | nodeSet blocks => "\x7bCount=" ++ toString blocks.length ++ "\x7d"
  | unrecognized value => "\x7bunknown type\x7d " ++ value

/-- The lines below the first one. -/
def details : ResultValue → List String
  | text value => ["", Literal.escape value]
  | nodeSet blocks => blocks.flatMap fun b => ["", b.tag, b.markup]
  | _ => []

/-- All lines that show the value. -/
def lines (v : ResultValue) : List String := v.headline :: v.details

/-- The text block of a success. -/
def report (declared : ResultType) (v : ResultValue) (t : PhaseTimings) : String :=
  "\n".intercalate <|
    [s!"[ResultType.{declared.name} -> {v.runtimeType.name}]: {v.headline}"] ++ v.details ++
      ["", "XML parse time     " ++ t.parse.clock, "XPath compile time " ++ t.compile.clock,
        "Evaluation time    " ++ t.evaluate.clock, sentinel]

end ResultValue

end XPathBench

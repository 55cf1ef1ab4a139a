import XPathBench.Json
import XPathBench.Pipeline

/-!
The machine-readable form of an outcome.

* `Outcome.summary`: the outcome as a JSON value
* `Outcome.json`: its text
-/

namespace XPathBench

/-- A node's block. -/
def NodeBlock.summary (b : NodeBlock) : Json :=
  .object [("kind", .text b.kind.name), ("markup", .text b.markup)]

/-- A value with its type. Texts and node-sets come with their sizes, numbers with their text. -/
def ResultValue.summary (v : ResultValue) : Json :=
  .object <| ("type", .text v.runtimeType.name) :: match v with
    | .text value => [("length", .natural value.length), ("value", .text value)]
    | .boolean value => [("value", .bool value)]
    | .number value => [("value", .number value), ("text", .text (Decimal.resultNumber value))]
    | .nodeSet blocks =>
      [("count", .natural blocks.length), ("nodes", .array (blocks.map NodeBlock.summary))]
    | .unrecognized value => [("text", .text value)]

/-- The timings in whole microseconds. -/
def PhaseTimings.summary (t : PhaseTimings) : Json :=
  .object [("parse", .natural t.parse.inMicroseconds),
    ("compile", .natural t.compile.inMicroseconds),
    ("evaluate", .natural t.evaluate.inMicroseconds), ("total", .natural t.total.inMicroseconds)]

/-- A diagnostic with its position split into line and column. -/
def Diagnostic.summary (d : Diagnostic) : Json :=
  .object [("phase", .text d.phase.name), ("kind", .text d.kind), ("message", .text d.message),
    ("line", .ofNatural? (d.position.map (·.line))),
    ("column", .ofNatural? (d.position.map (·.column))),
    ("source_line", .ofText? d.sourceLine), ("trace", .ofText? d.trace)]

/-- An outcome with its status. -/
def Outcome.summary : Outcome → Json
  | .success e => .object [("status", .text "success"), ("declared", .text e.declared.name),
      ("runtime", .text e.value.runtimeType.name), ("value", e.value.summary),
      ("timings_us", e.timings.summary)]
  | .failure d => .object [("status", .text "failure"), ("diagnostic", d.summary)]

/-- The JSON text of an outcome. -/
def Outcome.json (o : Outcome) : String := o.summary.pretty

end XPathBench

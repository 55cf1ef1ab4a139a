import XPathBench.Engine

/-!
Runs. A run parses the document, compiles the query and evaluates it, and stops at the first phase
that does not succeed. Whatever happens, the run ends with an outcome.

* `classify`: the shape of a raw result, the first that it answers for
* `Pipeline.run`: the outcome of a run
* `Outcome.render`: the text block of an outcome
-/

namespace XPathBench

/-- A value that a run reached. -/
structure Evaluation where
  declared : ResultType
  value : ResultValue
  timings : PhaseTimings

/-- How a run ends. -/
inductive Outcome where
  | success (evaluation : Evaluation)
  | failure (diagnostic : Diagnostic)

namespace Outcome

/-- The run reached a value. -/
def isSuccess : Outcome → Bool
  | success _ => true
  | failure _ => false

/-- The value reached, if any. -/
def evaluation? : Outcome → Option Evaluation
  | success e => some e
  | failure _ => none

/-- The diagnostic, if no value was reached. -/
def diagnostic? : Outcome → Option Diagnostic
  | success _ => none
  | failure d => some d

/-- The text block of an outcome. -/
def render : Outcome → String
  | success e => e.value.report e.declared e.timings
  | failure d => d.display

end Outcome

/-- The diagnostic kind of a crash. -/
def crashKind : String := "panic"

/-- The diagnostic kind of a node without markup. -/
def markupKind : String := "MarkupError"

/-- The diagnostic of a crash: it has no position, whatever phase it happened in. -/
def crashed (payload : CrashPayload) : Diagnostic :=
  .plain .unexpected crashKind payload.describe

/-- The diagnostic of an operation that did not succeed in a phase over a source text. -/
def Interruption.inPhase (phase : Phase) (source : String) : Interruption EngineFailure → Diagnostic
  | .failure f => .ofFailure phase f (some source)
  | .crash payload => crashed payload

/-- The diagnostic of a node that could not be written. -/
def Interruption.inMarkup : Interruption MarkupError → Diagnostic
  | .failure e => .plain .unexpected markupKind e.message
  | .crash payload => crashed payload

variable {m : Type → Type} [Monad m]

/-- A node's block: containers with everything below them, other nodes as they are stored. -/
def RawNode.block (indent : Indent) (n : RawNode m) :
    ExceptT (Interruption MarkupError) m NodeBlock :=
  return ⟨n.kind, ← if n.kind.hasSubtree then n.subtree indent else n.outer⟩

/-- The value of a raw result: of the shapes that it answers for, the first in the order text,
boolean, number, nodes. -/
def classify (indent : Indent) (raw : RawResult m) :
    ExceptT (Interruption MarkupError) m ResultValue :=
  match raw.text, raw.boolean, raw.number, raw.nodes with
  | some text, _, _, _ => return .text text
  | none, some value, _, _ => return .boolean value
  | none, none, some value, _ => return .number value
  | none, none, none, some nodes => return .nodeSet (← nodes.mapM (RawNode.block indent))
  | none, none, none, none => return .unrecognized raw.display

/-- An engine set up for runs: the layout of its nodes and a clock that shows the time passed. -/
structure Pipeline (m : Type → Type) (D Q : Type) where
  engine : Engine m D Q
  indent : Indent
  clock : m Duration

namespace Pipeline

variable {D Q : Type}

/-- The result of an action and the time it took. -/
def timed {α : Type} (clock : m Duration) (action : m α) : m (α × Duration) := do
  let before ← clock
  let result ← action
  let later ← clock
  return (result, .ofNanoseconds (later.inNanoseconds - before.inNanoseconds))

/-- One phase: its result and time, or the diagnostic of what interrupted it. -/
def phase {α : Type} (p : Pipeline m D Q) (phase : Phase) (source : String)
    (action : m (Attempt EngineFailure α)) : ExceptT Diagnostic m (α × Duration) := do
  let (attempt, time) ← timed p.clock action
  match attempt with
  | .ok result => return (result, time)
  | .error interruption => throw (interruption.inPhase phase source)

/-- The value of a run, or the diagnostic that ends it. -/
def phases (p : Pipeline m D Q) (document query : String) : ExceptT Diagnostic m Evaluation := do
  let (parsed, parse) ← p.phase .parsing document (p.engine.parse document)
  let (compiled, compile) ← p.phase .compiling query (p.engine.compile query)
  let (raw, evaluate) ← p.phase .evaluating document (p.engine.evaluate compiled parsed)
  match ← (classify p.indent raw).run with
  | .ok value => return ⟨p.engine.declared compiled, value, ⟨parse, compile, evaluate⟩⟩
  | .error interruption => throw interruption.inMarkup

/-- The outcome of a run. -/
def run (p : Pipeline m D Q) (document query : String) : m Outcome := do
  match ← (p.phases document query).run with
  | .ok evaluation => return .success evaluation
  | .error diagnostic => return .failure diagnostic

end Pipeline

end XPathBench

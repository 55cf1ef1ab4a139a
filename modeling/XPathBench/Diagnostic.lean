import XPathBench.Text.Blank
import XPathBench.Text.Lines

/-!
Diagnostics: what a run reports when it does not reach a value.

* `EngineFailure`: a failure raised by an engine, with the errors that caused it and the backtrace
* `Diagnostic`: a failure together with the phase it happened in and the source line it points at
* `Diagnostic.format`: the text block of a diagnostic, given the lines of the source
* `Diagnostic.display`: the text block with the line captured when the failure happened
-/

namespace XPathBench

/-- The line that ends every text block. -/
def sentinel : String := "End of line."

/-- A phase of a run. -/
inductive Phase where
  | parsing
  | compiling
  | evaluating
  | unexpected
deriving DecidableEq, Repr

namespace Phase

/-- The name of a phase. -/
def name : Phase → String
  | parsing => "Parsing"
  | compiling => "Compiling"
  | evaluating => "Evaluating"
  | unexpected => "Unexpected"

/-- What the run was doing in a phase. -/
def description : Phase → String
  | parsing => "parsing XML"
  | compiling => "parsing XPath"
  | evaluating => "evaluating XPath on XML"
  | unexpected => "running the evaluation"

end Phase

/-- A failure raised by an engine. -/
structure EngineFailure where
  kind : String
  message : String
  position : Option Position
  /-- The error behind the failure, the error behind that one, and so on. -/
  causes : List String
  /-- The calls that led to the failure, in words, if they were captured. -/
  backtrace : Option String
deriving DecidableEq, Repr

namespace EngineFailure

/-- A failure without position and causes, of which no backtrace was captured. -/
def plain (kind message : String) : EngineFailure := ⟨kind, message, none, [], none⟩

/-- The failure with what is captured where it is raised. -/
def raised (f : EngineFailure) (backtrace : Option String) : EngineFailure := { f with backtrace }

/-- Kind and message. -/
def describe (f : EngineFailure) : String := s!"{f.kind}: {f.message}"

/-- The causes behind the first one, a line each, and the backtrace behind them, without white space
at the end. A failure has no trace if nothing is left of it. -/
def trace (f : EngineFailure) : Option String :=
  let lines := (f.causes.drop 1).map fun cause => s!"caused by: {cause}\n"
  let text := Text.trimEnd (String.join lines ++ f.backtrace.getD "")
  if text = "" then none else some text

end EngineFailure

/-- What a run reports when it does not reach a value. -/
structure Diagnostic where
  phase : Phase
  kind : String
  message : String
  position : Option Position
  /-- The line of the source that the position lies on. -/
  sourceLine : Option String
  trace : Option String
deriving DecidableEq, Repr

namespace Diagnostic

/-- A diagnostic that points nowhere. -/
def plain (phase : Phase) (kind message : String) : Diagnostic :=
  ⟨phase, kind, message, none, none, none⟩

/-- The diagnostic of a failure, with the source line that it points at. -/
def ofFailure (phase : Phase) (f : EngineFailure) (source : Option String) : Diagnostic where
  phase := phase
  kind := f.kind
  message := f.message
  position := f.position
  sourceLine := do lineAt (sourceLines (← source)) (← f.position).line
  trace := f.trace

/-- The first line of the block. -/
def header (d : Diagnostic) : String :=
  s!"Error {d.phase.description}: $exception [{d.kind}]: {d.message}"

/-- The line that marks a column; column zero counts as the first. -/
def caret (column : Nat) : String :=
  String.ofList (List.replicate (max column 1 - 1) ' ') ++ "^"

/-- The source line and the caret under it. -/
def pointer (d : Diagnostic) (line : Option String) : List String :=
  match d.position, line with
  | some position, some text => [text, caret position.column]
  | _, _ => []

/-- The lines of the block when the position lies on `line`. -/
def block (d : Diagnostic) (line : Option String) : List String :=
  [d.header] ++ d.pointer line ++ d.trace.toList ++ ["", sentinel]

/-- The block, pointing into the given source lines. -/
def format (d : Diagnostic) (lines : List String) : String :=
  "\n".intercalate (d.block (d.position.bind fun position => lineAt lines position.line))

/-- The block, pointing at the captured source line. -/
def display (d : Diagnostic) : String := "\n".intercalate (d.block d.sourceLine)

end Diagnostic

end XPathBench

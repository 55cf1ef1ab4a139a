import XPathBench.CommandLine.Arguments
import XPathBench.Summary
import XPathBench.XPath.Engine
import XPathBench.Xml.EncodingDeclaration

/-!
Carrying commands out.

* `Inputs`: how commands reach their documents
* `Captures`: what is captured where commands fail
* `Source.load`: the document of a command
* `evalOutput`, `formatOutput`: what the commands print
* `Command.run`: the output of a command
-/

namespace XPathBench.CommandLine

/-- What a command prints, and the exit code that goes with it. -/
structure Output where
  text : String
  exitCode : Nat
deriving DecidableEq, Repr

/-- The exit code of a command that ends in a diagnostic. -/
def diagnosticExitCode : Nat := 2

/-- Why a command does not come to print anything. -/
inductive CommandError where
  | unreadableFile (path : String)
  | unreadableStandardInput
  | badBinding (fault : Binding.Fault)
deriving DecidableEq, Repr

/-- The error in words. -/
def CommandError.message : CommandError → String
  | unreadableFile path => s!"failed to read {path}"
  | unreadableStandardInput => "failed to read the document from stdin"
  | badBinding fault => fault.message

/-- How commands reach their documents. What cannot be read has no bytes. -/
structure Inputs (m : Type → Type) where
  file : String → m (Option (List UInt8))
  standardInput : m (Option (List UInt8))

/-- What is captured of the calls that lead to failures: in the run of an evaluation, and where a
document is read to be laid out. The two are reached by different calls. -/
structure Captures where
  eval : Backtraces
  format : Option String

/-- No backtrace is asked for. -/
def Captures.none : Captures := ⟨.none, .none⟩

/-- Spaces, so many a level. -/
def spaces (size : Nat) : Indent := ⟨size, ' '⟩

/-! ## Printing -/

/-- The first line of a report in color: blue for a success, red for a failure. -/
def inColor (isSuccess : Bool) (line : String) : String :=
  (if isSuccess then "\x1b[38;2;079;166;255m" else "\x1b[31m") ++ "\x1b[1m" ++ line ++
    "\x1b[0m\x1b[39m"

/-- The report of an outcome, with its first line in color. -/
def coloredReport (outcome : Outcome) : String :=
  match outcome.render.toList.span (· != '\n') with
  | (line, '\n' :: rest) =>
    inColor outcome.isSuccess (String.ofList line) ++ "\n" ++ String.ofList rest
  | _ => outcome.render

/-- What an evaluation prints. -/
def evalOutput (format : OutputFormat) (color : Bool) (outcome : Outcome) : Output where
  text := match format, color with
    | .json, _ => outcome.json
    | .text, true => coloredReport outcome
    | .text, false => outcome.render
  exitCode := if outcome.isSuccess then 0 else diagnosticExitCode

/-- What laying a document out prints. If the document cannot be read, it prints the failure with
what is captured there. -/
def formatOutput (indent : Nat) (document : String) (backtrace : Option String := none) : Output :=
  match Xml.Document.load document with
  | .ok parsed => ⟨parsed.pretty (spaces indent).margin, 0⟩
  | .error failure =>
    let diagnostic := Diagnostic.ofFailure .parsing (failure.raised backtrace) (some document)
    ⟨diagnostic.display, diagnosticExitCode⟩

/-! ## Commands -/

/-- The bindings of an evaluation. Prefixes are looked at before variables. -/
def EvalOptions.bindings (o : EvalOptions) : Except Binding.Fault XPath.Bindings := do
  let namespaces ← Binding.parseAll Setting.prefixBinding.name o.namespaces
  let vars ← Binding.parseAll Setting.variableBinding.name o.vars
  return ⟨namespaces, vars⟩

variable {m : Type → Type} [Monad m]

/-- The text in bytes that were read, which have to be UTF-8. -/
def textOf? (bytes : Option (List UInt8)) : Option String :=
  bytes.bind fun bytes => (Utf8.decode bytes).toOption

/-- The text at an origin. -/
def Origin.read (inputs : Inputs m) : Origin → ExceptT CommandError m String
  | .file path => do
    match textOf? (← inputs.file path) with
    | some text => return text
    | none => throw (.unreadableFile path)
  | .inline text => return text
  | .standardInput => do
    match textOf? (← inputs.standardInput) with
    | some text => return text
    | none => throw .unreadableStandardInput

/-- The document of a command, prepared for parsing. -/
def Source.load (inputs : Inputs m) (source : Source) : ExceptT CommandError m String := do
  return Xml.prepare source.keepEncoding (← source.origin.read inputs)

/-- The output of a command. The document is read before anything else is looked at. `color` tells
whether the terminal has colors. -/
def Command.run (inputs : Inputs m) (clock : m Duration) (color : Bool) (command : Command)
    (captures : Captures := .none) : ExceptT CommandError m Output :=
  match command with
  | .eval o => do
    let document ← o.source.load inputs
    match o.bindings with
    | .error fault => throw (.badBinding fault)
    | .ok bindings =>
      let engine := XPath.engine bindings captures.eval
      let pipeline : Pipeline m _ _ := ⟨engine, spaces o.indent, clock⟩
      return evalOutput o.format (color && !o.noColor) (← pipeline.run document o.query)
  | .format source indent => do
    return formatOutput indent (← source.load inputs) captures.format

end XPathBench.CommandLine

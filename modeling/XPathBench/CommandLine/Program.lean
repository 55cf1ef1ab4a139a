import XPathBench.CommandLine.Run

/-!
The program as a whole: from its arguments to what it prints and its exit code.

* `Program.Result`: what a run of the program leaves behind
* `Program.run`: such a run
-/

namespace XPathBench.CommandLine.Program

/-- The name and version of the program. -/
def versionLine : String := "xpath-tester 0.1.0"

/-- The text that tells how to use the program. -/
def usage : String := "\n".intercalate [
  "Evaluate XPath 1.0 queries against XML documents",
  "",
  "Usage: xpath-tester [--log-level LEVEL] COMMAND",
  "",
  "Commands:",
  "  eval XPATH  Evaluate an XPath expression and print the typed result",
  "  format      Parse a document and print it re-indented",
  "  help        Print this message",
  "",
  "Options of both commands:",
  "  --file PATH        Read the document from a file (UTF-8)",
  "  --xml TEXT         Use the given text as the document",
  "  --keep-encoding    Leave an encoding declaration in place",
  "  --indent N         Spaces per nesting level",
  "  --log-level LEVEL  error, warn, info, debug or trace",
  "",
  "Options of eval:",
  "  --namespace PREFIX=URI  Bind a namespace prefix for the query",
  "  --var NAME=VALUE        Bind a string variable for the query",
  "  --format FORMAT         text or json",
  "  --no-color              Do not color the output"]

/-- Arguments that cannot be followed, in words. -/
def describe : ArgumentError → String
  | .nothingGiven | .help => usage
  | .version => versionLine
  | .missingCommand => "a command is required: eval or format"
  | .unknownCommand => "there is no such command"
  | .unknownArgument => "unexpected argument"
  | .missingQuery => "an XPath expression is required"
  | .badValue => "a value is missing or not allowed"
  | .noNumber => "a value is no number"
  | .surplusValue => "a value is given for an option that takes none"
  | .conflict => "an option is given twice or excludes another one"

/-- What a run leaves behind. -/
structure Result where
  /-- The text on standard output. -/
  out : String
  /-- The text on standard error. -/
  err : String
  exitCode : Nat
deriving DecidableEq, Repr

/-- The result of printing a text. -/
def printed (text : String) (exitCode : Nat) : Result := ⟨text ++ "\n", "", exitCode⟩

/-- The result of complaining. -/
def complained (text : String) (exitCode : Nat) : Result := ⟨"", text ++ "\n", exitCode⟩

/-- The result of arguments that cannot be followed. Help and version are no errors. -/
def stopped : ArgumentError → Result
  | .help => printed usage 0
  | .version => printed versionLine 0
  | e => complained (describe e) 2

/-- A run of the program. A command that does not come to print anything ends with exit code 1. -/
def run {m : Type → Type} [Monad m] (inputs : Inputs m) (clock : m Duration) (color : Bool)
    (arguments : List String) (captures : Captures := .none) : m Result := do
  match Invocation.parse arguments with
  | .error e => return stopped e
  | .ok invocation => match ← (invocation.command.run inputs clock color captures).run with
    | .ok output => return printed output.text output.exitCode
    | .error e => return complained e.message 1

end XPathBench.CommandLine.Program

/-!
What the program is asked to do.

* `Command`: the commands with their options
* `Invocation`: a command together with the options of the program itself
-/

namespace XPathBench.CommandLine

/-- How much the program tells about its work. -/
inductive LogLevel where
  | error
  | warn
  | info
  | debug
  | trace
deriving DecidableEq, Repr

namespace LogLevel

/-- All levels, from the tersest on. -/
def all : List LogLevel := [error, warn, info, debug, trace]

/-- The name of a level. -/
def name : LogLevel → String
  | error => "error"
  | warn => "warn"
  | info => "info"
  | debug => "debug"
  | trace => "trace"

end LogLevel

/-- The form in which an outcome is printed. -/
inductive OutputFormat where
  | text
  | json
deriving DecidableEq, Repr

namespace OutputFormat

/-- All forms. -/
def all : List OutputFormat := [text, json]

/-- The name of a form. -/
def name : OutputFormat → String
  | text => "text"
  | json => "json"

end OutputFormat

/-- Where a document comes from. -/
inductive Origin where
  | file (path : String)
  | inline (text : String)
  | standardInput
deriving DecidableEq, Repr

/-- A document that a command works on. -/
structure Source where
  origin : Origin
  /-- The document keeps the encoding that it declares. -/
  keepEncoding : Bool
deriving DecidableEq, Repr

/-- The options of an evaluation. -/
structure EvalOptions where
  query : String
  source : Source
  /-- Bindings of prefixes and variables, as `name=value`. -/
  namespaces : List String
  vars : List String
  /-- Spaces a level. -/
  indent : Nat
  format : OutputFormat
  noColor : Bool
deriving DecidableEq, Repr

/-- What to do. -/
inductive Command where
  /-- Evaluate a query on a document. -/
  | eval (options : EvalOptions)
  /-- Lay a document out afresh. -/
  | format (source : Source) (indent : Nat)
deriving DecidableEq, Repr

/-- A command and how much to tell about it. -/
structure Invocation where
  logLevel : LogLevel
  command : Command
deriving DecidableEq, Repr

end XPathBench.CommandLine

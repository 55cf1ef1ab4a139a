import XPathBench.ResultValue
import XPathBench.Text.Utf8

/-!
Engines. An engine parses documents, compiles queries and evaluates a query on a document. Each of
its operations may succeed, fail, or crash; it may keep a state or have effects, so all of them are
actions of a monad.

* `Attempt`: how an operation ends
* `Backtraces`: what is captured where operations fail
* `RawNode`, `RawResult`: what an evaluation hands over, to be asked for one shape after another
* `Engine`: the three operations
-/

namespace XPathBench

/-- What a crash leaves behind. -/
inductive CrashPayload where
  | message (text : String)
  /-- Something that holds no text. -/
  | wordless
deriving DecidableEq, Repr

/-- The payload in words. -/
def CrashPayload.describe : CrashPayload → String
  | message text => text
  | wordless => "unknown panic payload"

/-- What keeps an operation from succeeding: a failure of its own kind, or a crash. -/
inductive Interruption (ε : Type) where
  | failure (reason : ε)
  | crash (payload : CrashPayload)
deriving DecidableEq, Repr

/-- How an operation ends. -/
abbrev Attempt (ε α : Type) := Except (Interruption ε) α

/-- What is captured of the calls that lead to the failure of an operation, by its phase. Nothing is
captured unless it is asked for. -/
abbrev Backtraces := Phase → Option String

/-- No backtrace is asked for. -/
def Backtraces.none : Backtraces := fun _ => .none

/-- The interruption with what is captured where it is raised. A crash keeps its payload only. -/
def Interruption.raised (backtrace : Option String) :
    Interruption EngineFailure → Interruption EngineFailure
  | .failure f => .failure (f.raised backtrace)
  | .crash payload => .crash payload

/-- Why a node has no markup. -/
inductive MarkupError where
  | writing (reason : String)
  | malformed (fault : Utf8.Malformed)
deriving DecidableEq, Repr

/-- The reason in words. -/
def MarkupError.message : MarkupError → String
  | writing reason => s!"failed to write markup: {reason}"
  | malformed fault => s!"serialized markup is not valid UTF-8: {fault.message}"

/-- The indentation of one level. -/
structure Indent where
  size : Nat
  fill : Char
deriving DecidableEq, Repr

/-- A level's worth of fill, `depth` times. -/
def Indent.margin (indent : Indent) (depth : Nat) : String :=
  String.ofList (List.replicate (depth * indent.size) indent.fill)

/-- A node as an engine hands it over. -/
structure RawNode (m : Type → Type) where
  kind : NodeKind
  /-- The node with everything below it, laid out afresh. -/
  subtree : Indent → m (Attempt MarkupError String)
  /-- The node as it is stored. -/
  outer : m (Attempt MarkupError String)

/-- A result as an engine hands it over. Each field answers for its own shape. -/
structure RawResult (m : Type → Type) where
  text : Option String
  boolean : Option Bool
  number : Option Float
  nodes : Option (List (RawNode m))
  /-- What the value calls itself if it has none of these shapes. -/
  display : String

/-- An engine with documents in `D` and compiled queries in `Q`. -/
structure Engine (m : Type → Type) (D Q : Type) where
  parse : String → m (Attempt EngineFailure D)
  compile : String → m (Attempt EngineFailure Q)
  /-- The type that a compiled query announces. -/
  declared : Q → ResultType
  evaluate : Q → D → m (Attempt EngineFailure (RawResult m))

end XPathBench

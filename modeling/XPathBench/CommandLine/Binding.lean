import XPathBench.Text.Blank

/-!
Bindings given on the command line, as `name=value`.

* `Binding.parse`: the name and value of a binding
* `Binding.parseAll`: those of all bindings, if none is at fault
-/

namespace XPathBench.CommandLine.Binding

/-- What is wrong with a binding that was given for an option. -/
inductive Fault where
  | noEquals (option binding : String)
  | blankName (option binding : String)
deriving DecidableEq, Repr

/-- The fault in words. -/
def Fault.message : Fault → String
  | noEquals option binding => s!"--{option} expects NAME=VALUE, got `{binding}`"
  | blankName option binding => s!"--{option} has an empty name in `{binding}`"

/-- A text split at its first equals sign, if it has one. -/
def splitAtEquals (text : List Char) : Option (List Char × List Char) :=
  match text.span (· != '=') with
  | (name, _ :: value) => some (name, value)
  | (_, []) => none

/-- The name and value of a binding. The name ends at the first equals sign and has no white space
around it. -/
def parse (option binding : String) : Except Fault (String × String) :=
  match splitAtEquals binding.toList with
  | none => .error (.noEquals option binding)
  | some (name, value) =>
    match Text.trimChars name with
    | [] => .error (.blankName option binding)
    | c :: rest => .ok (String.ofList (c :: rest), String.ofList value)

/-- The names and values of bindings, or the fault of the first one that has a fault. -/
def parseAll (option : String) (bindings : List String) : Except Fault (List (String × String)) :=
  bindings.mapM (parse option)

end XPathBench.CommandLine.Binding

import XPathBench.CommandLine.Binding
import XPathBench.CommandLine.Invocation

/-!
Reading the arguments of the program. An option takes its value from behind an equals sign or from
the next argument, which must not begin with a dash. An option takes effect, and its value is looked
at, only when the next one begins; an argument that is out of place counts before a bad value.

* `ArgumentError`: why arguments cannot be followed
* `Word`: the forms of an argument
* `Progress`: what has been read, and the option that still waits for its value
* `Invocation.parse`: the invocation that arguments stand for
-/

namespace XPathBench.CommandLine

/-- Why arguments cannot be followed. -/
inductive ArgumentError where
  /-- Nothing was asked for. -/
  | nothingGiven
  | missingCommand
  | unknownCommand
  | unknownArgument
  | missingQuery
  /-- A value is absent, or none of those allowed. -/
  | badValue
  /-- A value is not the number it should be. -/
  | noNumber
  /-- A value for an option that takes none. -/
  | surplusValue
  /-- An option is given twice, or together with one that it excludes. -/
  | conflict
  /-- Help was asked for. -/
  | help
  /-- The version was asked for. -/
  | version
deriving DecidableEq, Repr

/-! ## Options -/

/-- A command by its name. -/
inductive CommandName where
  | eval
  | format
deriving DecidableEq, Repr

/-- The command with a name. -/
def CommandName.named? : String → Option CommandName
  | "eval" => some eval
  | "format" => some format
  | _ => none

/-- The word that asks for help on a command. -/
def helpWord : String := "help"

/-- An option without value. -/
inductive Flag where
  | keepEncoding
  | noColor
  | help
  | version
deriving DecidableEq, Repr

namespace Flag

/-- The name of a flag. -/
def name : Flag → String
  | keepEncoding => "keep-encoding"
  | noColor => "no-color"
  | help => "help"
  | version => "version"

/-- The letter that stands for a flag. -/
def letter? : Flag → Option Char
  | help => some 'h'
  | version => some 'V'
  | _ => none

/-- The flags of a command; those of the program itself without one. -/
def offered : Option CommandName → List Flag
  | none => [help, version]
  | some .eval => [keepEncoding, noColor, help]
  | some .format => [keepEncoding, help]

end Flag

/-- An option with a value. -/
inductive Setting where
  | logLevel
  | file
  | xml
  | prefixBinding
  | variableBinding
  | indent
  | outputFormat
deriving DecidableEq, Repr

namespace Setting

/-- The name of a setting. -/
def name : Setting → String
  | logLevel => "log-level"
  | file => "file"
  | xml => "xml"
  | prefixBinding => "namespace"
  | variableBinding => "var"
  | indent => "indent"
  | outputFormat => "format"

/-- The settings of a command; those of the program itself without one. -/
def offered : Option CommandName → List Setting
  | none => [logLevel]
  | some .eval => [logLevel, file, xml, prefixBinding, variableBinding, indent, outputFormat]
  | some .format => [logLevel, file, xml, indent]

end Setting

/-- The values given so far. -/
structure Settings where
  logLevel : Option LogLevel
  file : Option String
  xml : Option String
  namespaces : List String
  vars : List String
  indent : Option Nat
  outputFormat : Option OutputFormat
  keepEncoding : Bool
  noColor : Bool

namespace Settings

/-- Nothing is given. -/
def nothing : Settings := ⟨none, none, none, [], [], none, none, false, false⟩

/-- One of the values that are allowed, by its name. -/
def oneOf {α : Type} (allowed : List α) (name : α → String) (value : String) :
    Except ArgumentError α :=
  match allowed.find? fun a => name a == value with
  | some a => .ok a
  | none => .error .badValue

/-- A natural number of sixty-four bits in decimal, perhaps with a plus sign. -/
def count (value : String) : Except ArgumentError Nat :=
  let digits := match value.toList with
    | '+' :: rest => rest
    | cs => cs
  let n := digits.foldl (fun n c => n * 10 + (c.toNat - '0'.toNat)) 0
  if digits.isEmpty || digits.any (fun c => !c.isDigit) || 0xFFFFFFFFFFFFFFFF < n then
    .error .noNumber
  else .ok n

/-- A value that may be given only once. -/
def once {α : Type} (old : Option α) (new : Except ArgumentError α) :
    Except ArgumentError (Option α) :=
  if old.isSome then .error .conflict else new.map some

/-- The values with one more. -/
def put (s : Settings) (setting : Setting) (value : String) : Except ArgumentError Settings := do
  match setting with
  | .logLevel =>
    return { s with logLevel := ← once s.logLevel (oneOf LogLevel.all LogLevel.name value) }
  | .file =>
    return { s with file := ← once s.file (if value = "" then .error .badValue else .ok value) }
  | .xml => return { s with xml := ← once s.xml (.ok value) }
  | .prefixBinding => return { s with namespaces := s.namespaces ++ [value] }
  | .variableBinding => return { s with vars := s.vars ++ [value] }
  | .indent => return { s with indent := ← once s.indent (count value) }
  | .outputFormat =>
    return { s with
      outputFormat := ← once s.outputFormat (oneOf OutputFormat.all OutputFormat.name value) }

/-- The values with one more flag. A flag may be given only once. -/
def raise (s : Settings) : Flag → Except ArgumentError Settings
  | .keepEncoding =>
    if s.keepEncoding then .error .conflict else .ok { s with keepEncoding := true }
  | .noColor => if s.noColor then .error .conflict else .ok { s with noColor := true }
  | .help => .error .help
  | .version => .error .version

end Settings

/-! ## Words -/

/-- The forms of an argument. -/
inductive Word where
  /-- Two dashes: no more options follow. -/
  | terminator
  | long (name : String) (value : Option String)
  | letters (letters : List Char)
  | plain
deriving DecidableEq, Repr

/-- The form of an argument. -/
def Word.of (argument : String) : Word :=
  match argument.toList with
  | ['-', '-'] => .terminator
  | '-' :: '-' :: rest => match Binding.splitAtEquals rest with
    | some (name, value) => .long (String.ofList name) (some (String.ofList value))
    | none => .long (String.ofList rest) none
  | '-' :: c :: rest => .letters (c :: rest)
  | _ => .plain

/-! ## Progress -/

/-- What has been read. -/
structure Progress where
  settings : Settings
  /-- The setting read last, and its value unless that is still to come. -/
  pending : Option (Setting × Option String)
  query : Option String

namespace Progress

/-- Nothing has been read. -/
def start : Progress := ⟨.nothing, none, none⟩

/-- The setting read last takes effect. -/
def settle (p : Progress) : Except ArgumentError Progress :=
  match p.pending with
  | none => .ok p
  | some (_, none) => .error .badValue
  | some (setting, some value) => do
    return { p with settings := ← p.settings.put setting value, pending := none }

/-- A flag is read. -/
def flag (p : Progress) (f : Flag) : Except ArgumentError Progress := do
  let p ← p.settle
  return { p with settings := ← p.settings.raise f }

/-- The name of an option is read, perhaps with a value. -/
def long (scope : Option CommandName) (p : Progress) (name : String) (value : Option String) :
    Except ArgumentError Progress :=
  match (Setting.offered scope).find? (·.name == name), (Flag.offered scope).find? (·.name == name),
      value with
  | some setting, _, some v => do
    let p ← p.settle
    return { p with settings := ← p.settings.put setting v }
  | some setting, _, none => do return { ← p.settle with pending := some (setting, none) }
  | none, some _, some _ => .error .surplusValue
  | none, some f, none => p.flag f
  | none, none, _ => .error .unknownArgument

/-- Letters that stand for flags are read. -/
def letters (scope : Option CommandName) (p : Progress) : List Char → Except ArgumentError Progress
  | [] => .ok p
  | c :: rest => match (Flag.offered scope).find? (·.letter? == some c) with
    | some f => do letters scope (← p.flag f) rest
    | none => .error .unknownArgument

/-- The query is read. Only an evaluation has one. -/
def operand (command : CommandName) (p : Progress) (text : String) :
    Except ArgumentError Progress :=
  match command, p.query with
  | .eval, none => do return { ← p.settle with query := some text }
  | _, _ => .error .unknownArgument

/-- An argument without dash is the value that is waited for, if there is one. -/
def asValue? (p : Progress) (text : String) : Option Progress :=
  match p.pending with
  | some (setting, none) => some { p with pending := some (setting, some text) }
  | _ => none

/-- Reads the arguments of a command. -/
def readCommand (command : CommandName) (p : Progress) :
    List String → Except ArgumentError Progress
  | [] => p.settle
  | argument :: rest => match Word.of argument with
    | .terminator => do (← rest.foldlM (operand command) p).settle
    | .long name value => do readCommand command (← p.long (some command) name value) rest
    | .letters cs => do readCommand command (← p.letters (some command) cs) rest
    | .plain => match p.asValue? argument with
      | some p => readCommand command p rest
      | none => do readCommand command (← p.operand command argument) rest

/-- The command that a word before all commands names. Help on something that is no command cannot
be given. -/
def commandNamed (word : String) (rest : List String) : Except ArgumentError CommandName :=
  match CommandName.named? word with
  | some command => .ok command
  | none =>
    if word = helpWord then match rest with
      | [] => .error .help
      | [topic] =>
        if topic = helpWord || (CommandName.named? topic).isSome then .error .help
        else .error .unknownCommand
      | _ => .error .unknownCommand
    else .error .unknownCommand

/-- What is wrong if the arguments end before a command. -/
def withoutCommand (p : Progress) : ArgumentError :=
  if p.settings.logLevel.isSome then .missingCommand else .nothingGiven

/-- Reads the arguments up to the name of a command. -/
def readProgram (p : Progress) :
    List String → Except ArgumentError (Progress × CommandName × List String)
  | [] => do throw (← p.settle).withoutCommand
  | argument :: rest => match Word.of argument with
    | .terminator => match rest with
      | [] => do throw (← p.settle).withoutCommand
      | word :: _ =>
        if word = helpWord || (CommandName.named? word).isSome then .error .unknownArgument
        else .error .unknownCommand
    | .long name value => do readProgram (← p.long none name value) rest
    | .letters cs => do readProgram (← p.letters none cs) rest
    | .plain => match p.asValue? argument with
      | some p => readProgram p rest
      | none => do return (p, ← commandNamed argument rest, rest)

end Progress

/-! ## Invocations -/

namespace Settings

/-- The document that the values name. -/
def source (s : Settings) : Except ArgumentError Source :=
  match s.file, s.xml with
  | some _, some _ => .error .conflict
  | some path, none => .ok ⟨.file path, s.keepEncoding⟩
  | none, some text => .ok ⟨.inline text, s.keepEncoding⟩
  | none, none => .ok ⟨.standardInput, s.keepEncoding⟩

end Settings

/-- The command that stands for what was read. -/
def Progress.command (p : Progress) (name : CommandName) : Except ArgumentError Command := do
  let s := p.settings
  let source ← s.source
  let indent := s.indent.getD 1
  match name, p.query with
  | .eval, some query => return .eval ⟨query, source, s.namespaces, s.vars, indent,
      s.outputFormat.getD .text, s.noColor⟩
  | .eval, none => throw .missingQuery
  | .format, _ => return .format source indent

/-- The invocation that arguments stand for. A level given behind the command counts before one
given in front of it. -/
def Invocation.parse (arguments : List String) : Except ArgumentError Invocation := do
  let (outer, name, rest) ← Progress.start.readProgram arguments
  let inner ← Progress.start.readCommand name rest
  let command ← inner.command name
  let outer ← outer.settle
  return ⟨(inner.settings.logLevel <|> outer.settings.logLevel).getD .warn, command⟩

end XPathBench.CommandLine

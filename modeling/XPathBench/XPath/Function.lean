import XPathBench.Decimal.Round
import XPathBench.Text.Search
import XPathBench.XPath.Value

/-!
The function library.

* `Focus`: what an expression is evaluated at
* `Function`, `Function.named?`: the functions by name
* `Function.apply`: a function on arguments
-/

namespace XPathBench.XPath

/-- What an expression is evaluated at: a place, its number among the places looked at, and how many
of these there are. -/
structure Focus where
  place : Place
  position : Nat
  size : Nat

/-- Why a function has no value. -/
inductive ArgumentError where
  | tooMany (expected actual : Nat)
  | notEnough (expected actual : Nat)
  | notANodeSet (kind : String)
deriving DecidableEq, Repr

/-- The error in words. -/
def ArgumentError.message : ArgumentError → String
  | tooMany expected actual => s!"too many arguments, expected {expected} but had {actual}"
  | notEnough expected actual => s!"not enough arguments, expected {expected} but had {actual}"
  | notANodeSet kind => s!"argument was expected to be a nodeset but was a {kind}"

/-- A function of the library. -/
inductive Function where
  | last
  | position
  | count
  | localName
  | namespaceUri
  | name
  | string
  | concat
  | startsWith
  | contains
  | substringBefore
  | substringAfter
  | substring
  | stringLength
  | normalizeSpace
  | translate
  | boolean
  | not
  | true
  | false
  | number
  | sum
  | floor
  | ceiling
  | round
deriving DecidableEq, Repr

namespace Function

/-- All functions with their names. -/
def names : List (String × Function) :=
  [("last", last), ("position", position), ("count", count), ("local-name", localName),
   ("namespace-uri", namespaceUri), ("name", name), ("string", string), ("concat", concat),
   ("starts-with", startsWith), ("contains", contains), ("substring-before", substringBefore),
   ("substring-after", substringAfter), ("substring", substring), ("string-length", stringLength),
   ("normalize-space", normalizeSpace), ("translate", translate), ("boolean", boolean),
   ("not", not), ("true", true), ("false", false), ("number", number), ("sum", sum),
   ("floor", floor), ("ceiling", ceiling), ("round", round)]

/-- The function with a name. -/
def named? (name : String) : Option Function := names.lookup name

/-- The least and the greatest number of arguments. -/
def arity : Function → Nat × Option Nat
  | last | position | true | false => (0, some 0)
  | count | sum | boolean | not | floor | ceiling | round => (1, some 1)
  | localName | namespaceUri | name | string | stringLength | normalizeSpace | number => (0, some 1)
  | startsWith | contains | substringBefore | substringAfter => (2, some 2)
  | translate => (3, some 3)
  | substring => (2, some 3)
  | concat => (2, none)

/-- The number of arguments is one that the function takes. -/
def checkArity (f : Function) (actual : Nat) : Except ArgumentError Unit :=
  let (least, greatest) := f.arity
  if actual < least then .error (.notEnough least actual)
  else match greatest with
    | some most => if most < actual then .error (.tooMany most actual) else .ok ()
    | none => .ok ()

/-- The first argument, which has to be a node-set; without arguments the place itself. -/
def nodesOr (place : Place) : List Value → Except ArgumentError (List Place)
  | [] => .ok [place]
  | .nodeSet places :: _ => .ok places
  | v :: _ => .error (.notANodeSet v.kindName)

/-- The first argument as a text; without arguments the text of the place. -/
def textOr (place : Place) : List Value → String
  | [] => place.stringValue
  | v :: _ => v.toText

/-! ## Text -/

/-- The words of a text, without the blanks around them; `word` is the one before, last character
first. -/
def wordsFrom (word : List Char) : List Char → List (List Char)
  | [] => if word.isEmpty then [] else [word.reverse]
  | c :: rest =>
    if Text.isXmlBlank c then
      if word.isEmpty then wordsFrom [] rest else word.reverse :: wordsFrom [] rest
    else wordsFrom (c :: word) rest

/-- The text with single spaces between its words and none around them. -/
def normalized (text : String) : String :=
  " ".intercalate ((wordsFrom [] text.toList).map String.ofList)

/-- The text with each character of `source` replaced by that at its place in `target`, or dropped
if there is none. -/
def substituted (text source target : List Char) : List Char :=
  text.flatMap fun c => match source.idxOf? c with
    | none => [c]
    | some i => target[i]?.toList

/-- The characters of a text whose numbers, counted from one, lie in a range. The end is not in it.
-/
def charactersIn (start stop : Float) (text : List Char) : List Char :=
  (text.zipIdx 1).filterMap fun (c, i) =>
    let position := Float.ofNat i
    if start ≤ position && position < stop then some c else none

/-- The number as great as can be. -/
def infinity : Float := Float.ofBits 0x7FF0000000000000

/-- A part of a text, by its first position and length. Both are rounded. -/
def part (text : String) (start length : Float) : String :=
  let first := Decimal.roundHalfUp start
  String.ofList (charactersIn first (first + Decimal.roundHalfUp length) text.toList)

/-! ## Application -/

/-- A function on arguments whose number it takes. -/
def evaluate (f : Function) (focus : Focus) (arguments : List Value) :
    Except ArgumentError Value := do
  let texts := arguments.map fun v => v.toText.toList
  let number1 := (arguments.head?.map Value.toNumber).getD 0
  let boolean1 := (arguments.head?.map Value.toBoolean).getD .false
  match f with
  | last => return .number (Float.ofNat focus.size)
  | position => return .number (Float.ofNat focus.position)
  | count => return .number (Float.ofNat (← nodesOr focus.place arguments).length)
  | localName =>
    let nodes ← nodesOr focus.place arguments
    return .string (((nodes.head?.bind Place.expandedName?).map (·.2)).getD "")
  | namespaceUri =>
    let nodes ← nodesOr focus.place arguments
    return .string ((((nodes.head?.bind Place.expandedName?).bind (·.1))).getD "")
  | name => return .string (((← nodesOr focus.place arguments).head?.map Place.displayName).getD "")
  | string => return .string (textOr focus.place arguments)
  | concat => return .string (String.join (arguments.map Value.toText))
  | startsWith => match texts with
    | [text, start] => return .boolean (start.isPrefixOf text)
    | _ => return .boolean .false
  | contains => match texts with
    | [text, mark] => return .boolean (Text.before? mark text).isSome
    | _ => return .boolean .false
  | substringBefore => match texts with
    | [text, mark] => return .string (String.ofList ((Text.before? mark text).getD []))
    | _ => return .string ""
  | substringAfter => match texts with
    | [text, mark] => return .string (String.ofList ((Text.behind? mark text).getD []))
    | _ => return .string ""
  | substring => match arguments with
    | text :: start :: rest =>
      let length := (rest.head?.map Value.toNumber).getD infinity
      return .string (part text.toText start.toNumber length)
    | _ => return .string ""
  | stringLength => return .number (Float.ofNat (textOr focus.place arguments).length)
  | normalizeSpace => return .string (normalized (textOr focus.place arguments))
  | translate => match texts with
    | [text, source, target] => return .string (String.ofList (substituted text source target))
    | _ => return .string ""
  | boolean => return .boolean boolean1
  | not => return .boolean !boolean1
  | true => return .boolean .true
  | false => return .boolean .false
  | number => match arguments with
    | [] => return .number (numberOf focus.place.stringValue)
    | v :: _ => return .number v.toNumber
  | sum =>
    let nodes ← nodesOr focus.place arguments
    return .number (nodes.foldl (fun total p => total + numberOf p.stringValue) 0)
  | floor => return .number number1.floor
  | ceiling => return .number number1.ceil
  | round => return .number (Decimal.roundHalfUp number1)

/-- A function on arguments. -/
def apply (f : Function) (focus : Focus) (arguments : List Value) : Except ArgumentError Value := do
  f.checkArity arguments.length
  f.evaluate focus arguments

end Function

end XPathBench.XPath

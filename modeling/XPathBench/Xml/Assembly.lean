import XPathBench.Xml.Node
import XPathBench.Xml.SyntaxError
import XPathBench.Xml.Token

/-!
Putting the pieces of a document together: start and end tags have to match, names get their
namespaces, and references become characters.

* `StartTag.resolve`: a start tag with its names resolved, inside elements that are open
* `Assembly.add`: one more piece
-/

namespace XPathBench.Xml

/-! ## References -/

/-- The character with a code point, if there is one. -/
def charOf? (n : Nat) : Option Char := if n.isValidChar then some (Char.ofNat n) else none

/-- The value of a digit in a base up to sixteen. -/
def digitValue (c : Char) : Nat :=
  if c.isDigit then c.toNat - '0'.toNat else c.toLower.toNat - 'a'.toNat + 10

/-- The value of digits in a base. -/
def numberIn (base : Nat) (digits : String) : Nat :=
  digits.toList.foldl (fun n c => n * base + digitValue c) 0

/-- The characters that have names. -/
def namedCharacters : List (String × Char) :=
  [("amp", '&'), ("lt", '<'), ("gt", '>'), ("apos", '\''), ("quot", '"')]

/-- The character that a reference stands for. -/
def Reference.resolve (place : Nat) : Reference → Except Fault Char
  | .named name => (namedCharacters.lookup name).elim (.error ⟨.unknownNamedReference, place⟩) .ok
  | .decimal digits =>
    (charOf? (numberIn 10 digits)).elim (.error ⟨.invalidDecimalReference, place⟩) .ok
  | .hex digits => (charOf? (numberIn 16 digits)).elim (.error ⟨.invalidHexReference, place⟩) .ok

/-- The text that pieces of an attribute value stand for. -/
def resolveValue : List ValuePiece → Except Fault String
  | [] => .ok ""
  | .text value :: rest => return value ++ (← resolveValue rest)
  | .reference reference place :: rest => do
    let c ← reference.resolve place
    return c.toString ++ (← resolveValue rest)

/-! ## Attributes -/

/-- The order of names in a tag: those without prefix first, then by prefix, then by local name. -/
def PrefixedName.before (a b : PrefixedName) : Bool :=
  match a.prefixName, b.prefixName with
  | none, some _ => true
  | some _, none => false
  | none, none => a.localName < b.localName
  | some p, some q => p < q || (p == q && a.localName < b.localName)

namespace WrittenAttribute

/-- An attribute put at its place among attributes in order, in front of those with its name. -/
def insert (new : WrittenAttribute) : List WrittenAttribute → List WrittenAttribute
  | [] => [new]
  | a :: rest => if a.name.before new.name then a :: insert new rest else new :: a :: rest

/-- Attributes in the order of their names; those with one name keep their order. -/
def sort (attributes : List WrittenAttribute) : List WrittenAttribute := attributes.foldr insert []

/-- The first of sorted attributes that repeats the name before it. -/
def firstRepeated? : List WrittenAttribute → Option WrittenAttribute
  | a :: b :: rest => if a.name = b.name then some b else firstRepeated? (b :: rest)
  | _ => none

/-- The attribute binds a namespace prefix. -/
def bindsPrefix (a : WrittenAttribute) : Bool := a.name.prefixName == some "xmlns"

/-- The attribute declares a default namespace: its local name says so, whatever its prefix. -/
def bindsDefault (a : WrittenAttribute) : Bool := !a.bindsPrefix && a.name.localName == "xmlns"

/-- The attribute says nothing about namespaces. -/
def isPlain (a : WrittenAttribute) : Bool := !a.bindsPrefix && !a.bindsDefault

end WrittenAttribute

/-- Attributes with one more, which replaces one with the same namespace and local name. -/
def Attribute.put (new : Attribute) (attributes : List Attribute) : List Attribute :=
  (attributes.filter fun a =>
    !(a.name.uri == new.name.uri && a.name.localName == new.name.localName)) ++ [new]

/-! ## Open elements -/

/-- An element whose end tag has not come yet. -/
structure OpenElement where
  written : PrefixedName
  tag : Tag
  /-- The default namespace that the element leaves to the elements inside it. -/
  inherited : Option String
  /-- The children, the last one first. -/
  children : List Node

/-- The namespace bound to the prefix `xml`. -/
def xmlUri : String := "http://www.w3.org/XML/1998/namespace"

/-- The namespace of a prefix: from the bindings of the element itself, else from the innermost open
element that binds it. -/
def namespaceOf? (own : List (String × String)) (enclosing : List OpenElement) (p : String) :
    Option String :=
  (own.lookup p).or (enclosing.findSome? fun e => e.tag.bindings.lookup p)

namespace StartTag

/-- A complaint at the first attribute given, if one is given. -/
def rejectFirst (complaint : Complaint) : Option WrittenAttribute → Except Fault Unit
  | some a => .error ⟨complaint, a.place⟩
  | none => .ok ()

/-- The prefixes that attributes bind. No prefix is bound to the empty namespace. -/
def resolveBindings : List WrittenAttribute → Except Fault (List (String × String))
  | [] => .ok []
  | a :: rest => do
    let uri ← resolveValue a.value
    if uri = "" then .error ⟨.emptyNamespace, a.place⟩
    return (a.name.localName, uri) :: (← resolveBindings rest)

/-- The namespace of a written prefix; without prefix there is none. -/
def resolvePrefix (own : List (String × String)) (enclosing : List OpenElement) (place : Nat) :
    Option String → Except Fault (Option String)
  | none => .ok none
  | some p => match namespaceOf? own enclosing p with
    | some uri => .ok (some uri)
    | none => .error ⟨.unknownNamespacePrefix, place⟩

/-- Attributes with their values and namespaces, added one by one to those in `done`. -/
def resolveAttributes (own : List (String × String)) (enclosing : List OpenElement)
    (done : List Attribute) : List WrittenAttribute → Except Fault (List Attribute)
  | [] => .ok done
  | a :: rest => do
    let value ← resolveValue a.value
    let uri ← resolvePrefix own enclosing a.place a.name.prefixName
    let new : Attribute := ⟨⟨uri, a.name.prefixName, a.name.localName⟩, value⟩
    resolveAttributes own enclosing (new.put done) rest

/-- The namespace of the element, given its own declaration of a default namespace. -/
def resolveName (tag : StartTag) (own : List (String × String)) (default : Option String)
    (enclosing : List OpenElement) : Except Fault (Option String) :=
  match tag.name.prefixName, default with
  | some p, _ => resolvePrefix own enclosing tag.place (some p)
  | none, some uri => .ok (if uri = "" then none else some uri)
  | none, none => .ok (enclosing.findSome? OpenElement.inherited)

/-- The default namespace that the element leaves to those inside it: its own one, if its name has
no prefix. -/
def inheritedFrom (tag : StartTag) (default : Option String) : Option String :=
  match tag.name.prefixName, default with
  | none, some uri => if uri = "" then none else some uri
  | _, _ => none

/-- The bindings of an element. The top element binds `xml` to its usual namespace, whatever its
start tag says. -/
def allBindings (own : List (String × String)) : List OpenElement → List (String × String)
  | [] => ("xml", xmlUri) :: own.filter fun b => b.1 != "xml"
  | _ => own

/-- The element that a start tag opens inside open elements. To its attributes, what the start tag
itself binds comes before the `xml` of a top element. -/
def resolve (tag : StartTag) (enclosing : List OpenElement) : Except Fault OpenElement := do
  let sorted := WrittenAttribute.sort tag.attributes
  let plain := sorted.filter WrittenAttribute.isPlain
  let binding := sorted.filter WrittenAttribute.bindsPrefix
  let defaults := sorted.filter WrittenAttribute.bindsDefault
  rejectFirst .duplicateAttribute (WrittenAttribute.firstRepeated? plain)
  rejectFirst .redefinedNamespace (WrittenAttribute.firstRepeated? binding)
  rejectFirst .redefinedDefaultNamespace defaults.tail.getLast?
  let default ← defaults.head?.mapM fun a => resolveValue a.value
  let own ← resolveBindings binding
  let uri ← tag.resolveName own default enclosing
  let bindings := allBindings own enclosing
  let attributes ← resolveAttributes (own ++ bindings) enclosing [] plain
  return {
    written := tag.name
    tag := ⟨⟨uri, tag.name.prefixName, tag.name.localName⟩, bindings, attributes⟩
    inherited := tag.inheritedFrom default
    children := [] }

end StartTag

/-! ## Assembly -/

/-- A document in the making: the elements that are open, innermost first, and the nodes that are
complete at top level, the last one first. -/
structure Assembly where
  enclosing : List OpenElement
  complete : List Node

namespace Assembly

/-- Nothing yet. -/
def empty : Assembly := ⟨[], []⟩

/-- A complete node, put into the innermost open element, or at top level. -/
def put (node : Node) : Assembly → Assembly
  | ⟨[], complete⟩ => ⟨[], node :: complete⟩
  | ⟨e :: outer, complete⟩ => ⟨{ e with children := node :: e.children } :: outer, complete⟩

/-- The innermost open element, closed. -/
def close (name : PrefixedName) (place : Nat) : Assembly → Except Fault Assembly
  | ⟨e :: outer, complete⟩ =>
    if e.written = name then .ok (put (.element e.tag e.children.reverse) ⟨outer, complete⟩)
    else .error ⟨.mismatchedEndName, place⟩
  | ⟨[], _⟩ => .error ⟨.mismatchedEndName, place⟩

/-- One more piece. Declarations and the blanks between pieces leave nothing behind. -/
def add (a : Assembly) : Token → Except Fault Assembly
  | .declaration | .doctype | .gap => .ok a
  | .comment text => .ok (a.put (.comment text))
  | .instruction target value => .ok (a.put (.instruction target value))
  | .text value | .cdata value => .ok (a.put (.text value))
  | .reference reference place => do
    let c ← reference.resolve place
    return a.put (.text c.toString)
  | .opening tag => do
    let e ← tag.resolve a.enclosing
    if tag.selfClosing then return a.put (.element e.tag [])
    else return ⟨e :: a.enclosing, a.complete⟩
  | .closing name place => a.close name place

end Assembly

end XPathBench.Xml

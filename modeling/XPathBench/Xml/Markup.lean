import XPathBench.Text.Blank
import XPathBench.Xml.Node

/-!
Writing documents. A node is written as a list of pieces, which are then put one after the other as
they are, or laid out with one piece a line. Names keep their prefixes; a namespace is declared at
the first element that needs it, so that the markup of a node can stand alone.

* `Scope`: the declarations made so far
* `Node.pieces`: a node as pieces
* `Piece.raw`, `Piece.layOut`: pieces as text
* `Node.withoutBlankText`: what is left of a node when blank text is dropped
-/

namespace XPathBench.Xml

/-! ## Escaping -/

/-- A character in an attribute value. -/
def escapeValueChar (c : Char) : List Char :=
  if c = '<' then "&lt;".toList
  else if c = '>' then "&gt;".toList
  else if c = '&' then "&amp;".toList
  else if c = '\'' then "&apos;".toList
  else if c = '"' then "&quot;".toList
  else [c]

/-- A character in text. -/
def escapeTextChar (c : Char) : List Char :=
  if c = '<' then "&lt;".toList
  else if c = '>' then "&gt;".toList
  else if c = '&' then "&amp;".toList
  else [c]

/-- A text as it is written in an attribute value. -/
def escapeValue (s : String) : String := String.ofList (s.toList.flatMap escapeValueChar)

/-- A text as it is written in content. -/
def escapeText (s : String) : String := String.ofList (s.toList.flatMap escapeTextChar)

/-! ## Declarations -/

/-- Namespace declarations, the latest first. A declaration of the empty namespace takes the one
before it back. -/
abbrev Scope := List (Option String × String)

namespace Scope

/-- The namespace that a prefix stands for. -/
def lookup (scope : Scope) (p : Option String) : Option String :=
  (List.lookup p scope).filter (· ≠ "")

/-- What is needed for a prefix is already so. -/
def provides (scope : Scope) (need : Option String × String) : Bool :=
  if need.2 = "" then (scope.lookup need.1).isNone else scope.lookup need.1 == some need.2

/-- The scope in which all needs are met, and the declarations that it takes, in order. -/
def extend (scope : Scope) : List (Option String × String) → Scope × List (Option String × String)
  | [] => (scope, [])
  | need :: rest =>
    if scope.provides need then extend scope rest
    else
      let (inner, later) := extend (need :: scope) rest
      (inner, need :: later)

end Scope

/-- What a name needs of its prefix: an attribute without prefix needs nothing. -/
def Attribute.need? (a : Attribute) : Option (Option String × String) :=
  match a.name.uri, a.name.prefixName with
  | some uri, some p => some (some p, uri)
  | _, _ => none

/-- What the name of an element needs of its prefix, or of the default namespace. -/
def Tag.need (t : Tag) : Option String × String :=
  match t.name.uri with
  | some uri => (t.name.prefixName, uri)
  | none => (none, "")

/-- What the names in a tag need, in order. -/
def Tag.needs (t : Tag) : List (Option String × String) :=
  t.need :: t.attributes.filterMap Attribute.need?

/-! ## Pieces -/

/-- A name with a value, as it stands in a tag. -/
def written (name value : String) : String := name ++ "=\"" ++ escapeValue value ++ "\""

/-- An attribute as it is written. -/
def Attribute.markup (a : Attribute) : String := written a.name.qualified a.value

/-- A namespace declaration as it is written. -/
def declarationMarkup : Option String × String → String
  | (some p, uri) => written ("xmlns:" ++ p) uri
  | (none, uri) => written "xmlns" uri

/-- A comment as it is written. -/
def commentMarkup (text : String) : String := "<!--" ++ text ++ "-->"

/-- A processing instruction as it is written. -/
def instructionMarkup (target : String) : Option String → String
  | some value => "<?" ++ target ++ " " ++ value ++ "?>"
  | none => "<?" ++ target ++ "?>"

/-- The inside of a start tag. -/
def Tag.inside (t : Tag) (declarations : List (Option String × String)) : String :=
  t.name.qualified ++
    String.join (declarations.map fun d => " " ++ declarationMarkup d) ++
    String.join (t.attributes.map fun a => " " ++ a.markup)

/-- A part of the written form of a node. -/
inductive Piece where
  /-- A start tag. -/
  | opening (text : String)
  /-- An end tag. -/
  | closing (text : String)
  /-- A tag of an element without content, a comment or a processing instruction. -/
  | single (text : String)
  | text (text : String)
deriving DecidableEq, Repr

mutual

/-- A node as pieces, inside elements that have made declarations. -/
def Node.pieces (scope : Scope) : Node → List Piece
  | .element tag [] => [.single ("<" ++ tag.inside (scope.extend tag.needs).2 ++ "/>")]
  | .element tag (child :: rest) =>
    let (inner, declarations) := scope.extend tag.needs
    .opening ("<" ++ tag.inside declarations ++ ">") ::
      (child.pieces inner ++ piecesOfAll inner rest ++
        [.closing ("</" ++ tag.name.qualified ++ ">")])
  | .text value => [.text (escapeText value)]
  | .comment value => [.single (commentMarkup value)]
  | .instruction target value => [.single (instructionMarkup target value)]

/-- Nodes as pieces, one after the other. What one of them declares is forgotten behind it. -/
def piecesOfAll (scope : Scope) : List Node → List Piece
  | [] => []
  | n :: rest => n.pieces scope ++ piecesOfAll scope rest

end

namespace Piece

/-- A piece as it is. -/
def content : Piece → String
  | opening s | closing s | single s | text s => s

/-- Pieces one after the other. -/
def raw (pieces : List Piece) : String := String.join (pieces.map content)

/-- Pieces with each on a line of its own, except that nothing is added before and behind text.
`depth` elements are open; `breaks` tells whether a line break may stand before the next piece. -/
def layOutFrom (margin : Nat → String) (depth : Nat) (breaks : Bool) : List Piece → String
  | [] => ""
  | opening s :: rest =>
    lineStart margin depth breaks ++ s ++ layOutFrom margin (depth + 1) true rest
  | closing s :: rest =>
    lineStart margin (depth - 1) breaks ++ s ++ layOutFrom margin (depth - 1) true rest
  | single s :: rest => lineStart margin depth breaks ++ s ++ layOutFrom margin depth true rest
  | text s :: rest => s ++ layOutFrom margin depth false rest
where
  lineStart (margin : Nat → String) (depth : Nat) (breaks : Bool) : String :=
    if breaks then "\n" ++ margin depth else ""

/-- Pieces with each on a line of its own, except that nothing is added before and behind text. A
line starts with the margin of its depth. -/
def layOut (margin : Nat → String) (pieces : List Piece) : String :=
  layOutFrom margin 0 false pieces

end Piece

/-! ## Dropping blank text -/

/-- The node is text with nothing but white space. -/
def Node.isBlankText : Node → Bool
  | .text value => Text.allBlank value
  | _ => false

mutual

/-- A node without the blank text inside its elements. -/
def Node.withoutBlankText : Node → Node
  | .element tag children => .element tag (dropBlankText children)
  | n => n

/-- Nodes without blank text, among them and everywhere below. -/
def dropBlankText : List Node → List Node
  | [] => []
  | n :: rest =>
    if n.isBlankText then dropBlankText rest else n.withoutBlankText :: dropBlankText rest

end

/-! ## Whole nodes and documents -/

/-- A node as it is stored. -/
def Node.markup (n : Node) : String := Piece.raw (n.pieces [])

/-- A node laid out afresh. -/
def Node.pretty (margin : Nat → String) (n : Node) : String :=
  Piece.layOut margin (n.withoutBlankText.pieces [])

/-- A document as it is stored. -/
def Document.markup (d : Document) : String := Piece.raw (piecesOfAll [] d.children)

/-- A document laid out afresh. -/
def Document.pretty (margin : Nat → String) (d : Document) : String :=
  Piece.layOut margin (piecesOfAll [] (d.children.map Node.withoutBlankText))

end XPathBench.Xml

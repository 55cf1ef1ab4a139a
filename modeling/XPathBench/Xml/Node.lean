import XPathBench.Xml.Name

/-!
XML documents as trees.

* `Name`: an element's or attribute's name with its namespace resolved
* `Node`: elements, text, comments and processing instructions
* `Document`: what stands at top level
* `Node.textOf`: all text inside a node
* `mergeText`: one text node for each run of adjacent ones
-/

namespace XPathBench.Xml

/-- A name with its namespace. The prefix is the one that was written. -/
structure Name where
  uri : Option String
  prefixName : Option String
  localName : String
deriving DecidableEq, Repr

/-- The name as it is written in markup: a prefix appears only with a namespace. -/
def Name.qualified (n : Name) : String :=
  match n.uri, n.prefixName with
  | some _, some p => p ++ ":" ++ n.localName
  | _, _ => n.localName

/-- An attribute. -/
structure Attribute where
  name : Name
  value : String
deriving DecidableEq, Repr

/-- What a start tag says, with all names resolved. -/
structure Tag where
  name : Name
  /-- The namespace prefixes that the element binds, with their namespaces. -/
  bindings : List (String × String)
  attributes : List Attribute
deriving DecidableEq, Repr

/-- A node of a document. -/
inductive Node where
  | element (tag : Tag) (children : List Node)
  | text (value : String)
  | comment (value : String)
  | instruction (target : String) (value : Option String)
deriving Repr

/-- A document: comments, processing instructions and the top element. -/
structure Document where
  children : List Node
deriving Repr

mutual

/-- All text inside a node. -/
def Node.textOf : Node → String
  | .element _ children => textOfAll children
  | .text value => value
  | .comment _ => ""
  | .instruction _ _ => ""

/-- All text inside nodes, one after the other. -/
def textOfAll : List Node → String
  | [] => ""
  | n :: rest => n.textOf ++ textOfAll rest

end

/-! ## Runs of text -/

/-- A node put in front of others. Text joins text that comes next. -/
def prependNode : Node → List Node → List Node
  | .text a, .text b :: rest => .text (a ++ b) :: rest
  | n, rest => n :: rest

mutual

/-- A node in which adjacent text is joined everywhere. -/
def Node.mergeText : Node → Node
  | .element tag children => .element tag (mergeTextAll children)
  | n => n

/-- Nodes in which adjacent text is joined, among themselves and everywhere below. -/
def mergeTextAll : List Node → List Node
  | [] => []
  | n :: rest => prependNode n.mergeText (mergeTextAll rest)

end

/-- A document in which adjacent text is joined in every element. -/
def Document.mergeText (d : Document) : Document := ⟨d.children.map Node.mergeText⟩

end XPathBench.Xml

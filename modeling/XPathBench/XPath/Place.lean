import XPathBench.Xml.Assembly
import XPathBench.Xml.Markup

/-!
Places: the nodes of a document as queries see them, each with its way up to the root. Attributes
and the namespaces in scope of an element are places too; their parent is the element.

* `Place`: places; `Place.same` tells whether two of them are one node of the document
* `Place.subtree`: a place and everything below it, in document order
* `Place.ofDocument`, `Place.inDocumentOrder`: all places of a document, and some in order
* `Place.ancestors`, `Place.following`, `Place.preceding`: the places up, after and before
* `Place.namespaces`: the namespaces in scope of an element
* `Place.stringValue`, `Place.markup`: what a place says, and how it is written
-/

namespace XPathBench.XPath

open Xml (Document Node Attribute)

/-- A node of a document with its way up to the root. -/
inductive Place where
  | root (document : Document)
  | node (parent : Place) (index : Nat) (node : Node)
  | attr (owner : Place) (index : Nat) (value : Attribute)
  | binding (owner : Place) (prefixName uri : String)

namespace Place

/-- Two places in one document are the same node. -/
def same : Place → Place → Bool
  | root _, root _ => true
  | node p i _, node q j _ => i == j && same p q
  | attr p i _, attr q j _ => i == j && same p q
  | binding p a _, binding q b _ => a == b && same p q
  | _, _ => false

/-! ## Down -/

/-- The tag of an element. -/
def tag? : Place → Option Xml.Tag
  | node _ _ (.element tag _) => some tag
  | _ => none

/-- The place is an element. -/
def isElement (p : Place) : Bool := p.tag?.isSome

/-- Children from a number on. -/
def childrenFrom (parent : Place) (index : Nat) : List Node → List Place
  | [] => []
  | n :: rest => node parent index n :: childrenFrom parent (index + 1) rest

/-- The children of a place. -/
def children (p : Place) : List Place :=
  match p with
  | root document => p.childrenFrom 0 document.children
  | node _ _ (.element _ nodes) => p.childrenFrom 0 nodes
  | _ => []

/-- Attributes from a number on. -/
def attributesFrom (owner : Place) (index : Nat) : List Attribute → List Place
  | [] => []
  | a :: rest => attr owner index a :: attributesFrom owner (index + 1) rest

/-- The attributes of an element, as they are stored. -/
def attributes (p : Place) : List Place :=
  match p.tag? with
  | some tag => p.attributesFrom 0 tag.attributes
  | none => []

mutual

/-- A node that is a child with a number, and everything below it, in document order: the attributes
of an element, the last one first, come before its children. -/
def subtreeOf (parent : Place) (index : Nat) : Node → List Place
  | .element tag children =>
    let here := node parent index (.element tag children)
    here :: (here.attributes.reverse ++ subtreesOf here 0 children)
  | .text value => [node parent index (.text value)]
  | .comment value => [node parent index (.comment value)]
  | .instruction target value => [node parent index (.instruction target value)]

/-- Nodes that are children from a number on, with everything below them. -/
def subtreesOf (parent : Place) (index : Nat) : List Node → List Place
  | [] => []
  | n :: rest => subtreeOf parent index n ++ subtreesOf parent (index + 1) rest

end

/-- A place and everything below it, in document order. -/
def subtree : Place → List Place
  | root document => root document :: subtreesOf (root document) 0 document.children
  | node parent index n => subtreeOf parent index n
  | p => [p]

/-- The place is an attribute. -/
def isAttribute : Place → Bool
  | attr _ _ _ => true
  | _ => false

/-- The nodes below a place, without attributes. -/
def descendants (p : Place) : List Place := p.subtree.tail.filter fun q => !q.isAttribute

/-- A place and the nodes below it. -/
def descendantsOrSelf (p : Place) : List Place := p :: p.descendants

/-! ## Up and across -/

/-- The place above. -/
def parent? : Place → Option Place
  | root _ => none
  | node parent _ _ => some parent
  | attr owner _ _ => some owner
  | binding owner _ _ => some owner

/-- The places above, the nearest first. -/
def ancestors : Place → List Place
  | root _ => []
  | node parent _ _ => parent :: parent.ancestors
  | attr owner _ _ => owner :: owner.ancestors
  | binding owner _ _ => owner :: owner.ancestors

/-- The siblings behind a node, the nearest first. -/
def followingSiblings : Place → List Place
  | node parent index _ => parent.children.drop (index + 1)
  | _ => []

/-- The siblings before a node, the nearest first. -/
def precedingSiblings : Place → List Place
  | node parent index _ => (parent.children.take index).reverse
  | _ => []

/-- The nodes behind a place that are not below it. -/
def following (p : Place) : List Place :=
  (p :: p.ancestors).flatMap fun q => q.followingSiblings.flatMap descendantsOrSelf

/-- The nodes before a place that are not above it, the nearest first. -/
def preceding (p : Place) : List Place :=
  (p :: p.ancestors).flatMap fun q =>
    q.precedingSiblings.flatMap fun s => s.descendantsOrSelf.reverse

/-! ## Namespaces -/

/-- Bindings with more of them; a prefix that is bound already keeps its namespace. -/
def addBindings (bound : List (String × String)) (more : List (String × String)) :
    List (String × String) :=
  more.foldl (fun bound b => if (bound.lookup b.1).isSome then bound else bound ++ [b]) bound

/-- The prefixes bound in an element, and their namespaces: those of the element, then those of the
elements around it, of which the top element binds `xml`. -/
def bindingsInScope (p : Place) : List (String × String) :=
  (p :: p.ancestors).foldl (fun bound q => addBindings bound ((q.tag?.map (·.bindings)).getD [])) []

/-- The namespaces in scope of an element. Other places have none. -/
def namespaces (p : Place) : List Place :=
  if p.isElement then p.bindingsInScope.map fun (name, uri) => binding p name uri else []

/-- The place is a namespace in scope of an element. -/
def isBinding : Place → Bool
  | binding _ _ _ => true
  | _ => false

/-- The prefix by which a namespace is named at a place: the nearest element that binds some prefix
to it decides, and it prefers the prefix given. -/
def prefixFor? (p : Place) (uri : String) (preferred : Option String) : Option String :=
  (p :: p.ancestors).findSome? fun q =>
    let names := (((q.tag?.map (·.bindings)).getD []).filter fun b => b.2 == uri).map (·.1)
    match preferred with
    | some name => if names.contains name then some name else names.head?
    | none => names.head?

/-! ## Document order -/

/-- All places of a document in document order. The namespaces in scope of elements come last. -/
def ofDocument (document : Document) : List Place :=
  let nodes := (root document).subtree
  nodes ++ nodes.flatMap namespaces

/-- The places of a document that are among those given, in document order, each once. -/
def inDocumentOrder (document : Document) (places : List Place) : List Place :=
  (ofDocument document).filter fun p => places.any p.same

/-! ## What places say -/

/-- The text that a place stands for. -/
def stringValue : Place → String
  | root document => Xml.textOfAll document.children
  | node _ _ (.element tag children) => (Node.element tag children).textOf
  | node _ _ (.text value) => value
  | node _ _ (.comment value) => value
  | node _ _ (.instruction _ value) => value.getD ""
  | attr _ _ a => a.value
  | binding _ _ uri => uri

/-- The namespace and local name of a place that has a name. -/
def expandedName? : Place → Option (Option String × String)
  | node _ _ (.element tag _) => some (tag.name.uri, tag.name.localName)
  | node _ _ (.instruction target _) => some (none, target)
  | attr _ _ a => some (a.name.uri, a.name.localName)
  | binding _ name _ => some (none, name)
  | _ => none

/-- A local name with the prefix by which its namespace is named at a place. -/
def qualified (p : Place) (name : Xml.Name) : String :=
  match name.uri.bind fun uri => p.prefixFor? uri name.prefixName with
  | some p => p ++ ":" ++ name.localName
  | none => name.localName

/-- The name of a place as a query shows it. -/
def displayName : Place → String
  | p@(node _ _ (.element tag _)) => p.qualified tag.name
  | node _ _ (.instruction target _) => target
  | attr owner _ a => owner.qualified a.name
  | binding _ name _ => name
  | _ => ""

/-! ## Markup -/

/-- A place as it is stored. -/
def markup : Place → String
  | root document => document.markup
  | node _ _ (.text value) => Xml.escapeText value
  | node _ _ n => n.markup
  | attr _ _ a => a.markup
  | binding _ name uri => Xml.declarationMarkup (if name = "" then none else some name, uri)

/-- A place laid out afresh, if it has anything below it, else as it is stored. -/
def pretty (margin : Nat → String) : Place → String
  | root document => document.pretty margin
  | node _ _ (.element tag children) => (Node.element tag children).pretty margin
  | p => p.markup

end Place

end XPathBench.XPath

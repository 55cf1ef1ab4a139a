import XPathBench.Xml.Name

/-!
The pieces that a document is made of: tags, character data, references, comments and processing
instructions, with the XML declaration and the document type declaration in front.

* `Reference`, `ValuePiece`, `WrittenAttribute`, `StartTag`: what tags are made of
* `Token`: a piece of a document
-/

namespace XPathBench.Xml

/-- A reference to a character. -/
inductive Reference where
  | named (name : String)
  | decimal (digits : String)
  | hex (digits : String)
deriving DecidableEq, Repr

/-- A piece of an attribute value. References keep their place. -/
inductive ValuePiece where
  | text (value : String)
  | reference (value : Reference) (place : Nat)
deriving DecidableEq, Repr

/-- An attribute as it is written in a tag. -/
structure WrittenAttribute where
  name : PrefixedName
  place : Nat
  value : List ValuePiece
deriving DecidableEq, Repr

/-- A start tag as it is written. -/
structure StartTag where
  name : PrefixedName
  place : Nat
  attributes : List WrittenAttribute
  /-- The tag closes the element that it opens. -/
  selfClosing : Bool
deriving DecidableEq, Repr

/-- A piece of a document. Places count the characters from there to the end. -/
inductive Token where
  | declaration
  | doctype
  | gap
  | opening (tag : StartTag)
  | closing (name : PrefixedName) (place : Nat)
  | text (value : String)
  | cdata (value : String)
  | reference (value : Reference) (place : Nat)
  | comment (text : String)
  | instruction (target : String) (value : Option String)
deriving DecidableEq, Repr

end XPathBench.Xml

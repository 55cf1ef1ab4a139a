import XPathBench.Xml.Assembly
import XPathBench.Xml.Grammar

/-!
Reading XML documents.

* `Document.assemble`: the document that a text denotes, with a text node for each piece of text
* `Document.parse`: the document with adjacent text joined
-/

namespace XPathBench.Xml

namespace Document

/-- The document made of pieces, if they end at the end of the text and every element is closed. -/
def ofTokens (text : List Char) (tokens : List Token) (ending : Token.Ending) :
    Except SyntaxError Document :=
  match tokens.foldlM Assembly.add Assembly.empty, ending with
  | .error fault, _ => .error (.ofFault text fault)
  | .ok _, .stuck complaints => .error (.ofFurthest text complaints)
  | .ok ⟨[], nodes⟩, .complete => .ok ⟨nodes.reverse⟩
  | .ok ⟨_ :: _, _⟩, .complete => .error (.ofFault text ⟨.unclosedElement, 0⟩)

/-- The document that a text denotes. -/
def assemble (text : String) : Except SyntaxError Document :=
  let (tokens, ending) := Token.scan text.toList
  ofTokens text.toList tokens ending

/-- The document that a text denotes, with adjacent text joined. -/
def parse (text : String) : Except SyntaxError Document := (assemble text).map mergeText

end Document

end XPathBench.Xml

import XPathBench.Xml.Reader
import XPathBench.Xml.Token

/-!
The grammar of documents: a reader for each piece, and the order in which the pieces are tried.

* `Grammar.pieceIn`: the pieces that may stand in a region of a document
* `Token.scan`: the pieces of a text, and why there are no more of them
-/

namespace XPathBench.Xml

namespace Grammar

open Reader

/-! ## The declarations in front -/

/-- An equals sign with blanks around it. -/
def equals : Reader Unit := do spaces; literal "="; spaces

/-- Something between two quotes of one kind. -/
def quotedBy {α : Type} (quote : Char) (inner : Char → Reader α) : Reader α := do
  let mark := quote.toString
  literalAs (.expectedOpeningQuote mark) mark
  let value ← inner quote
  literalAs (.expectedClosingQuote mark) mark
  return value

/-- Something between quotes. -/
def quoted {α : Type} (inner : Char → Reader α) : Reader α :=
  (quotedBy '\'' inner).or (quotedBy '"' inner)

/-- The version in the XML declaration. -/
def versionInfo : Reader Unit := do
  space
  literal "version"
  equals
  quoted fun _ => do
    literalAs .expectedVersionNumber "1."
    discard (many1 .expectedVersionNumber Char.isDigit)

/-- The name of an encoding: a letter, then letters, digits, points, underscores and hyphens. -/
def leadingEncoding? : List Char → Option (List Char) :=
  leadingRun? Char.isAlpha fun c => c.isAlphanum || c == '.' || c == '_' || c == '-'

/-- The encoding in the XML declaration. -/
def encodingInfo : Reader Unit := do
  space
  literal "encoding"
  equals
  quoted fun _ => leading .expectedEncoding fun cs =>
    (leadingEncoding? cs).map fun n => ((), n.length)

/-- The word that tells whether a document stands alone. -/
def leadingYesNo? : List Char → Option (Unit × Nat)
  | 'y' :: 'e' :: 's' :: _ => some ((), 3)
  | 'n' :: 'o' :: _ => some ((), 2)
  | _ => none

/-- The standalone remark in the XML declaration. -/
def standaloneInfo : Reader Unit := do
  space
  literal "standalone"
  equals
  quoted fun _ => leading .expectedYesNo leadingYesNo?

/-- The XML declaration. -/
def xmlDeclaration : Reader Token := do
  literal "<?xml"
  versionInfo
  discard (optional encodingInfo)
  discard (optional standaloneInfo)
  spaces
  literal "?>"
  return .declaration

/-- The text of an attribute value up to a reference, a tag or the closing quote. -/
def valueText (complaint : Complaint) (quote : Char) : Reader String :=
  run complaint fun cs => cs.head?.any fun c => c == '&' || c == '<' || c == quote

/-- The system identifier in the document type declaration. -/
def externalId : Reader Unit := do
  space
  literal "SYSTEM"
  space
  discard (quoted fun quote => valueText .expectedSystemLiteral quote)

/-- The internal subset in the document type declaration, which is passed over. -/
def internalSubset : Reader Unit := do
  literal "["
  spaces
  discard (upTo .expectedIntSubset "]")
  spaces
  literal "]"
  spaces

/-- The document type declaration. -/
def doctypeDeclaration : Reader Token := do
  literal "<!DOCTYPE"
  space
  discard (name .expectedDocumentTypeName)
  discard (optional externalId)
  spaces
  discard (optional internalSubset)
  literal ">"
  return .doctype

/-! ## Tags -/

/-- A reference: its digits or name, and their place. -/
def referenceValue : Reader (Reference × Nat) :=
  firstOf (body (.expectedHexReference) "&#x" (many1 .expectedHexReferenceValue isHex) .hex)
    [body .expectedNamedReference "&" (name .expectedNamedReferenceValue) .named,
     body .expectedDecimalReference "&#" (many1 .expectedDecimalReferenceValue Char.isDigit)
       .decimal]
where
  isHex (c : Char) : Bool :=
    c.isDigit || ('a' ≤ c && c ≤ 'f') || ('A' ≤ c && c ≤ 'F')
  body (complaint : Complaint) (opening : String) (inner : Reader String)
      (make : String → Reference) : Reader (Reference × Nat) := do
    literalAs complaint opening
    let place ← place
    let value ← inner
    literal ";"
    return (make value, place)

/-- One piece of an attribute value, or the quote that closes it. -/
def valueStep (quote : Char) : Reader (ValuePiece ⊕ Unit) :=
  firstOf
    (do literalAs (.expectedClosingQuote quote.toString) quote.toString; return .inr ())
    [do return .inl (.text (← valueText .expectedAttributeValue quote)),
     do let (value, place) ← referenceValue; return .inl (.reference value place)]

/-- The quote that opens an attribute value. -/
def openingQuote (quote : Char) : Reader Char := do
  literalAs (.expectedOpeningQuote quote.toString) quote.toString
  return quote

/-- An attribute in a tag, with the blanks before it. -/
def attributeInTag : Reader WrittenAttribute := do
  space
  let place ← place
  let name ← qName .expectedAttribute
  equals
  let quote ← (openingQuote '"').or (openingQuote '\'')
  let (value, _) ← untilEnd (valueStep quote)
  return ⟨name, place, value⟩

/-- One attribute, or the end of the tag, which tells whether the tag closes its element. -/
def tagStep : Reader (WrittenAttribute ⊕ Bool) :=
  firstOf
    (do spaces; literalAs .expectedElementSelfClosed "/>"; return .inr true)
    [do return .inl (← attributeInTag),
     do spaces; literalAs .expectedElementEnd ">"; return .inr false]

/-- The bracket that opens a start tag. -/
def tagBracket : Reader Unit :=
  leading .expectedElement fun
    | '<' :: '?' :: _ | '<' :: '!' :: _ | '<' :: '/' :: _ => none
    | '<' :: _ => some ((), 1)
    | _ => none

/-- A start tag. -/
def startTag : Reader Token := do
  tagBracket
  let place ← place
  let name ← qName .expectedElementName
  let (attributes, selfClosing) ← untilEnd tagStep
  return .opening ⟨name, place, attributes, selfClosing⟩

/-- An end tag. -/
def endTag : Reader Token := do
  literal "</"
  let place ← place
  let name ← qName .expectedElementName
  spaces
  literal ">"
  return .closing name place

/-! ## Content -/

/-- Blanks between the parts of a document. -/
def blanks : Reader Token := do space; return .gap

/-- A comment. The first two hyphens in it end it. -/
def commentToken : Reader Token := do
  literalAs .expectedComment "<!--"
  let text ← upTo .expectedCommentBody "--"
  literal "-->"
  return .comment text

/-- The value of a processing instruction, with the blanks before it, which do not belong to it. -/
def instructionValue : Reader String := do
  space
  upTo .expectedInstructionValue "?>"

/-- A processing instruction, whose target is not `xml` in any spelling. -/
def instructionToken : Reader Token := do
  literalAs .expectedInstruction "<?"
  let target ← name .expectedInstructionTarget
  let value ← optional instructionValue
  literal "?>"
  return .instruction target value

/-- A processing instruction after a look at its target. -/
def checkedInstruction : Reader Token := fun c =>
  match instructionToken c with
  | .found (.instruction target value) next tried =>
    if target.toLower = "xml" then .stuck ⟨.invalidInstructionTarget, c.left - 2⟩ tried
    else .found (.instruction target value) next tried
  | reading => reading

/-- Character data up to a tag, a reference or the end of a CDATA section. -/
def characters : Reader Token := do
  return .text (← run .expectedCharacterData fun cs =>
    cs.head?.any (fun c => c == '<' || c == '&') || "]]>".toList.isPrefixOf cs)

/-- A CDATA section. -/
def cdataSection : Reader Token := do
  literal "<![CDATA["
  let text ← upTo .expectedCData "]]>"
  literal "]]>"
  return .cdata text

/-- A reference in content. -/
def contentReference : Reader Token := do
  let (value, place) ← referenceValue
  return .reference value place

/-! ## Documents -/

/-- Where in a document a piece may stand. -/
inductive Region where
  /-- At the very beginning. -/
  | beginning
  /-- Before the top element. -/
  | prolog
  /-- Inside `depth + 1` elements. -/
  | content (depth : Nat)
  /-- Behind the top element. -/
  | epilog
deriving DecidableEq, Repr

/-- A piece that may stand in a region. -/
def pieceIn : Region → Reader Token
  | .beginning => firstOf checkedInstruction [xmlDeclaration, startTag, blanks, commentToken]
  | .prolog => firstOf checkedInstruction [doctypeDeclaration, startTag, blanks, commentToken]
  | .content _ => firstOf checkedInstruction
      [startTag, endTag, characters, cdataSection, contentReference, commentToken]
  | .epilog => firstOf blanks [commentToken, checkedInstruction]

/-- The region behind a piece. -/
def Region.after : Region → Token → Region
  | .content depth, .opening tag => if tag.selfClosing then .content depth else .content (depth + 1)
  | _, .opening tag => if tag.selfClosing then .epilog else .content 0
  | .content 0, .closing _ _ => .epilog
  | .content (depth + 1), .closing _ _ => .content depth
  | .content depth, _ => .content depth
  | .epilog, _ => .epilog
  | _, _ => .prolog

/-- A text may end in a region. Whether all elements are closed is not seen here. -/
def Region.mayEnd : Region → Bool
  | .content _ | .epilog => true
  | _ => false

end Grammar

namespace Token

open Grammar

/-- Why there are no more pieces: the text is at its end, or reading is stuck. -/
inductive Ending where
  | complete
  | stuck (complaints : Furthest)
deriving DecidableEq, Repr

/-- At most `steps` pieces of the text left, with the complaints left behind so far. -/
def scanFrom : Nat → Region → Cursor → Furthest → List Token × Ending
  | 0, _, _, tried => ([], .stuck tried)
  | steps + 1, region, c, tried =>
    if region.mayEnd && c.rest.isEmpty then ([], .complete)
    else match pieceIn region c with
      | .stuck fault tried' =>
        if fault.complaint.isFinal then ([], .stuck ⟨fault.left, [fault.complaint]⟩)
        else ([], .stuck ((tried.join tried').note fault))
      | .found token next tried' =>
        let (tokens, ending) := scanFrom steps (region.after token) next (tried.join tried')
        (token :: tokens, ending)

/-- The pieces of a text. Each of them takes a character at least, so there are no more of them than
characters. -/
def scan (text : List Char) : List Token × Ending :=
  scanFrom (text.length + 1) .beginning (Cursor.of text) .none

end Token

end XPathBench.Xml

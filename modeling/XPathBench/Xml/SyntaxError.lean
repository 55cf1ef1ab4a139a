import XPathBench.Text.Lines

/-!
Why a text is no XML document.

* `Complaint`: one reason, declared in the order in which several of them are listed
* `Fault`: a complaint at a place, given by the number of characters from there to the end
* `Furthest`: the complaints made furthest into the text
* `SyntaxError`: the complaints at a byte offset
-/

namespace XPathBench.Xml

/-- A reason why reading stopped, or was not possible in one way. -/
inductive Complaint where
  | expected (text : String)
  | expectedAttribute
  | expectedAttributeValue
  | expectedCData
  | expectedCharacterData
  | expectedComment
  | expectedCommentBody
  | expectedElement
  | expectedElementName
  | expectedElementEnd
  | expectedElementSelfClosed
  | expectedInstruction
  | expectedInstructionTarget
  | expectedInstructionValue
  | expectedVersionNumber
  | expectedEncoding
  | expectedYesNo
  | expectedWhitespace
  | expectedDocumentTypeName
  | expectedIntSubset
  | expectedSystemLiteral
  | expectedClosingQuote (quote : String)
  | expectedOpeningQuote (quote : String)
  | expectedDecimalReferenceValue
  | expectedHexReferenceValue
  | expectedNamedReferenceValue
  | expectedDecimalReference
  | expectedHexReference
  | expectedNamedReference
  | invalidInstructionTarget
  | mismatchedEndName
  | invalidDecimalReference
  | invalidHexReference
  | unknownNamedReference
  | duplicateAttribute
  | redefinedNamespace
  | redefinedDefaultNamespace
  | emptyNamespace
  | unknownNamespacePrefix
  | unclosedElement
deriving DecidableEq, Ord, Repr

namespace Complaint

/-- A short text in double quotes. -/
def quoted (text : String) : String :=
  "\"" ++ String.ofList (text.toList.flatMap fun c => if c = '"' then ['\\', '"'] else [c]) ++ "\""

/-- The complaint in words. -/
def describe : Complaint → String
  | expected text => "Expected(" ++ quoted text ++ ")"
  | expectedAttribute => "ExpectedAttribute"
  | expectedAttributeValue => "ExpectedAttributeValue"
  | expectedCData => "ExpectedCData"
  | expectedCharacterData => "ExpectedCharacterData"
  | expectedComment => "ExpectedComment"
  | expectedCommentBody => "ExpectedCommentBody"
  | expectedElement => "ExpectedElement"
  | expectedElementName => "ExpectedElementName"
  | expectedElementEnd => "ExpectedElementEnd"
  | expectedElementSelfClosed => "ExpectedElementSelfClosed"
  | expectedInstruction => "ExpectedProcessingInstruction"
  | expectedInstructionTarget => "ExpectedProcessingInstructionTarget"
  | expectedInstructionValue => "ExpectedProcessingInstructionValue"
  | expectedVersionNumber => "ExpectedVersionNumber"
  | expectedEncoding => "ExpectedEncoding"
  | expectedYesNo => "ExpectedYesNo"
  | expectedWhitespace => "ExpectedWhitespace"
  | expectedDocumentTypeName => "ExpectedDocumentTypeName"
  | expectedIntSubset => "ExpectedIntSubset"
  | expectedSystemLiteral => "ExpectedSystemLiteral"
  | expectedClosingQuote quote => "ExpectedClosingQuote(" ++ quoted quote ++ ")"
  | expectedOpeningQuote quote => "ExpectedOpeningQuote(" ++ quoted quote ++ ")"
  | expectedDecimalReferenceValue => "ExpectedDecimalReferenceValue"
  | expectedHexReferenceValue => "ExpectedHexReferenceValue"
  | expectedNamedReferenceValue => "ExpectedNamedReferenceValue"
  | expectedDecimalReference => "ExpectedDecimalReference"
  | expectedHexReference => "ExpectedHexReference"
  | expectedNamedReference => "ExpectedNamedReference"
  | invalidInstructionTarget => "InvalidProcessingInstructionTarget"
  | mismatchedEndName => "MismatchedElementEndName"
  | invalidDecimalReference => "InvalidDecimalReference"
  | invalidHexReference => "InvalidHexReference"
  | unknownNamedReference => "UnknownNamedReference"
  | duplicateAttribute => "DuplicateAttribute"
  | redefinedNamespace => "RedefinedNamespace"
  | redefinedDefaultNamespace => "RedefinedDefaultNamespace"
  | emptyNamespace => "EmptyNamespace"
  | unknownNamespacePrefix => "UnknownNamespacePrefix"
  | unclosedElement => "UnclosedElement"

/-- After this complaint no other way of reading is tried. The other complaints mean only that one
way of reading did not go through. -/
def isFinal : Complaint → Bool
  | expectedEncoding | expectedYesNo | invalidInstructionTarget => true
  | _ => false

/-- A complaint put at its place among complaints listed in order, unless it is there already. -/
def insert (new : Complaint) : List Complaint → List Complaint
  | [] => [new]
  | c :: rest => match compare new c with
    | .lt => new :: c :: rest
    | .eq => c :: rest
    | .gt => c :: insert new rest

end Complaint

/-- A complaint at a place. -/
structure Fault where
  complaint : Complaint
  /-- The number of characters from the place to the end of the text. -/
  left : Nat
deriving DecidableEq, Repr

/-- The complaints made furthest into the text, in order; none at all if nothing was complained of.
-/
structure Furthest where
  left : Nat
  complaints : List Complaint
deriving DecidableEq, Repr

namespace Furthest

/-- No complaints. -/
def none : Furthest := ⟨0, []⟩

/-- The complaints of two readings that lie furthest into the text. -/
def join (a b : Furthest) : Furthest :=
  if a.complaints = [] then b
  else if b.complaints = [] then a
  else if a.left < b.left then a
  else if b.left < a.left then b
  else ⟨a.left, b.complaints.foldr Complaint.insert a.complaints⟩

/-- A fault added to the complaints. -/
def note (a : Furthest) (f : Fault) : Furthest := a.join ⟨f.left, [f.complaint]⟩

end Furthest

/-- Why a text is no XML document: the complaints at a byte offset. -/
structure SyntaxError where
  offset : Nat
  complaints : List Complaint
deriving DecidableEq, Repr

namespace SyntaxError

/-- The error in words. -/
def message (e : SyntaxError) : String :=
  "XML parsing error at " ++ toString e.offset ++ ": \x7b" ++
    ", ".intercalate (e.complaints.map Complaint.describe) ++ "\x7d"

/-- The error for complaints about a text. -/
def ofFurthest (text : List Char) (f : Furthest) : SyntaxError :=
  ⟨Text.byteSize (text.take (text.length - f.left)), f.complaints⟩

/-- The error for a single fault in a text. -/
def ofFault (text : List Char) (f : Fault) : SyntaxError :=
  ofFurthest text ⟨f.left, [f.complaint]⟩

end SyntaxError

end XPathBench.Xml

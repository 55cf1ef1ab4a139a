import XPathBench.Text.Blank

/-!
Names in markup and in queries. A name without colon starts with a start character and goes on with
name characters; a prefixed name joins two of them with a colon.

* `isNameStart`, `isNameChar`: the two alphabets
* `leadingNcName?`, `leadingQName?`: the name that a text starts with, as long as possible
* `PrefixedName.text`: a name as it is written
-/

namespace XPathBench.Xml

/-- The code points that may start a name. -/
def nameStartRanges : List (Nat × Nat) :=
  [(0x41, 0x5A), (0x5F, 0x5F), (0x61, 0x7A), (0xC0, 0xD6), (0xD8, 0xF6), (0xF8, 0x2FF),
   (0x370, 0x37D), (0x37F, 0x1FFF), (0x200C, 0x200D), (0x2070, 0x218F), (0x2C00, 0x2FEF),
   (0x3001, 0xD7FF), (0xF900, 0xFDCF), (0xFDF0, 0xFFFD), (0x10000, 0xEFFFF)]

/-- The further code points that may go on with a name. -/
def nameFurtherRanges : List (Nat × Nat) :=
  [(0x2D, 0x2E), (0x30, 0x39), (0xB7, 0xB7), (0x300, 0x36F), (0x203F, 0x2040)]

/-- A character that may start a name. -/
def isNameStart (c : Char) : Bool := Text.inRanges nameStartRanges c

/-- A character that may go on with a name. -/
def isNameChar (c : Char) : Bool := isNameStart c || Text.inRanges nameFurtherRanges c

/-- A name as it is written: with a prefix before a colon, or without. -/
structure PrefixedName where
  prefixName : Option String
  localName : String
deriving DecidableEq, Repr

/-- The name as it is written. -/
def PrefixedName.text (n : PrefixedName) : String :=
  match n.prefixName with
  | some p => p ++ ":" ++ n.localName
  | none => n.localName

/-- The number of characters of the name as it is written. -/
def PrefixedName.width (n : PrefixedName) : Nat :=
  match n.prefixName with
  | some p => p.length + 1 + n.localName.length
  | none => n.localName.length

/-- The longest run of characters at the start of a text that begins with `start` and goes on with
`further`. -/
def leadingRun? (start further : Char → Bool) : List Char → Option (List Char)
  | [] => none
  | c :: rest => if start c then some (c :: rest.takeWhile further) else none

/-- The name without colon that a text starts with. -/
def leadingNcName? : List Char → Option (List Char) := leadingRun? isNameStart isNameChar

/-- The name that a text starts with, where colons are allowed everywhere. -/
def leadingName? : List Char → Option (List Char) :=
  leadingRun? (fun c => isNameStart c || c == ':') fun c => isNameChar c || c == ':'

/-- The prefixed name that a text starts with. A colon that no name follows is not part of it. -/
def leadingQName? (cs : List Char) : Option PrefixedName := do
  let first ← leadingNcName? cs
  match cs.drop first.length with
  | ':' :: rest => match leadingNcName? rest with
    | some second => return ⟨some (String.ofList first), String.ofList second⟩
    | none => return ⟨none, String.ofList first⟩
  | _ => return ⟨none, String.ofList first⟩

end XPathBench.Xml

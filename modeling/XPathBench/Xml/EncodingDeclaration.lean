import XPathBench.Text.Blank

/-!
Texts as they come in. A text that has been decoded needs neither a byte-order mark nor a
declaration of its encoding, which could only contradict it.

* `EncodingDeclaration.strip?`: a text without the encoding that its XML declaration names
* `prepare`: a text that is ready to be parsed
-/

namespace XPathBench.Xml

namespace EncodingDeclaration

/-- The text behind a word that it begins with. -/
def behindWord? (word : String) (text : List Char) : Option (List Char) :=
  if word.toList.isPrefixOf text then some (text.drop word.length) else none

/-- The text behind the blanks that it begins with, one at least. -/
def behindBlanks? : List Char → Option (List Char)
  | [] => none
  | c :: rest => if Text.isXmlBlank c then some (rest.dropWhile Text.isXmlBlank) else none

/-- The text behind an equals sign, which may have blanks around it. -/
def behindEquals? (text : List Char) : Option (List Char) :=
  (behindWord? "=" (text.dropWhile Text.isXmlBlank)).map (·.dropWhile Text.isXmlBlank)

/-- The text behind a value in quotes. The value begins with a character of one kind, and characters
of another kind follow. -/
def behindQuoted? (isFirst isLater : Char → Bool) : List Char → Option (List Char)
  | quote :: first :: rest =>
    if (quote == '\'' || quote == '"') && isFirst first then
      behindWord? quote.toString (rest.dropWhile isLater)
    else none
  | _ => none

/-- A character of a version number. -/
def isVersionChar (c : Char) : Bool :=
  c.isAlphanum || c == '_' || c == '.' || c == ':' || c == '-'

/-- A character of the name of an encoding behind its first one, which is a letter. -/
def isEncodingChar (c : Char) : Bool := c.isAlphanum || c == '.' || c == '_' || c == '-'

/-- The text behind the start of an XML declaration, up to its version number. -/
def behindVersion? (text : List Char) : Option (List Char) := do
  let name ← behindBlanks? (← behindWord? "<?xml" text)
  behindQuoted? isVersionChar isVersionChar (← behindEquals? (← behindWord? "version" name))

/-- The text behind the name of an encoding, with the blanks before it. -/
def behindEncoding? (text : List Char) : Option (List Char) := do
  let name ← behindBlanks? text
  behindQuoted? Char.isAlpha isEncodingChar (← behindEquals? (← behindWord? "encoding" name))

/-- The text without the encoding in its XML declaration, if there is one. All else stays. -/
def strip? (text : List Char) : Option (List Char) := do
  let behindVersion ← behindVersion? text
  let behindEncoding ← behindEncoding? behindVersion
  return text.take (text.length - behindVersion.length) ++ behindEncoding

end EncodingDeclaration

/-- The text without the encoding in its XML declaration. -/
def withoutEncoding (text : String) : String :=
  ((EncodingDeclaration.strip? text.toList).map String.ofList).getD text

/-- The text without a byte-order mark at its start. -/
def withoutByteOrderMark (text : String) : String :=
  match text.toList with
  | '\uFEFF' :: rest => String.ofList rest
  | _ => text

/-- The text without byte-order mark and, unless it is to be kept, encoding. -/
def prepare (keepEncoding : Bool) (text : String) : String :=
  let decoded := withoutByteOrderMark text
  if keepEncoding then decoded else withoutEncoding decoded

end XPathBench.Xml

/-!
Text as a literal on one line: in double quotes, with the backslash, the line breaks and the quote
escaped.

* `Literal.escape`: writes a text as a literal
* `Literal.unescape`: reads a literal, or names the first fault in it
-/

namespace XPathBench.Literal

/-- The letter that stands for an escaped character. -/
def letter? : Char → Option Char
  | '\\' => some '\\'
  | '\r' => some 'r'
  | '\n' => some 'n'
  | '"' => some '"'
  | _ => none

/-- The character that an escape letter stands for. -/
def unletter? : Char → Option Char
  | '\\' => some '\\'
  | 'r' => some '\r'
  | 'n' => some '\n'
  | '"' => some '"'
  | _ => none

/-- What stands between the quotes of a literal. -/
def body : List Char → List Char
  | [] => []
  | c :: rest => match letter? c with
    | some l => '\\' :: l :: body rest
    | none => c :: body rest

/-- A text as a literal. -/
def escape (text : String) : String := String.ofList ('"' :: body text.toList ++ ['"'])

/-- Why a text is no literal. -/
inductive Fault where
  /-- The text does not stand in double quotes. -/
  | unquoted
  /-- A backslash before a character that is no escape letter. -/
  | unknownEscape (c : Char)
  /-- A backslash that ends the literal. -/
  | truncated
  /-- A quote inside the literal without a backslash. -/
  | strayQuote
deriving DecidableEq, Repr

/-- The fault in words. -/
def Fault.message : Fault → String
  | .unquoted => "literal is not wrapped in double quotes"
  | .unknownEscape c => s!"unknown escape sequence `\\{c}`"
  | .truncated => "literal ends inside an escape sequence"
  | .strayQuote => "unescaped double quote inside literal"

/-- The text between the outer quotes, if there are two. -/
def unquote? : List Char → Option (List Char)
  | '"' :: rest => if rest.getLast? = some '"' then some rest.dropLast else none
  | _ => none

/-- The text that a literal's body stands for. -/
def readBody : List Char → Except Fault (List Char)
  | [] => .ok []
  | '\\' :: [] => .error .truncated
  | '\\' :: l :: rest => match unletter? l with
    | some c => (readBody rest).map (c :: ·)
    | none => .error (.unknownEscape l)
  | c :: rest => if c = '"' then .error .strayQuote else (readBody rest).map (c :: ·)

/-- The text that a literal stands for. -/
def unescape (literal : String) : Except Fault String :=
  match unquote? literal.toList with
  | none => .error .unquoted
  | some inner => (readBody inner).map String.ofList

end XPathBench.Literal

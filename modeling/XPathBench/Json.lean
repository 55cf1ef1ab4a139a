import XPathBench.Decimal.Layout

/-!
JSON text with two spaces of indentation a level. Members keep the order in which they are given.

* `Json`: values
* `Json.pretty`: the text of a value
-/

namespace XPathBench

/-- A JSON value. Whole numbers and floating-point numbers are written differently. -/
inductive Json where
  | null
  | bool (value : Bool)
  | natural (value : Nat)
  | number (value : Float)
  | text (value : String)
  | array (items : List Json)
  | object (members : List (String × Json))

namespace Json

/-- JSON numbers have no exponent while the power of ten of their leading digit is at least -5 and
below 16; whole numbers end in a point and a zero, and exponents have a sign. -/
def layout : Decimal.Layout where
  plainFrom := some (-5)
  plainBelow := some 16
  pointZero := true
  plusSign := true
  tie := .toEven

/-- A floating-point number; the values that JSON cannot hold become null. -/
def float (x : Float) : String :=
  if x.isNaN || x.isInf then "null" else layout.write x

/-- A hexadecimal digit in lower case. -/
def hexDigit (n : Nat) : Char := if n < 10 then Char.ofNat (48 + n) else Char.ofNat (87 + n)

/-- A character inside a JSON string. -/
def escapeChar (c : Char) : List Char :=
  if c = '"' then ['\\', '"']
  else if c = '\\' then ['\\', '\\']
  else if c = '\n' then ['\\', 'n']
  else if c = '\r' then ['\\', 'r']
  else if c = '\t' then ['\\', 't']
  else if c.toNat = 8 then ['\\', 'b']
  else if c.toNat = 12 then ['\\', 'f']
  else if c.toNat < 32 then ['\\', 'u', '0', '0', hexDigit (c.toNat / 16), hexDigit (c.toNat % 16)]
  else [c]

/-- A JSON string. -/
def quote (s : String) : String := String.ofList ('"' :: s.toList.flatMap escapeChar ++ ['"'])

/-- The start of a line at a level. -/
def newline (level : Nat) : String := "\n" ++ String.ofList (List.replicate (2 * level) ' ')

mutual

/-- A value whose first line stands at a level. -/
def prettyAt (level : Nat) : Json → String
  | null => "null"
  | bool value => if value then "true" else "false"
  | natural value => toString value
  | number value => float value
  | text value => quote value
  | array [] => "[]"
  | array (item :: rest) =>
    "[" ++ newline (level + 1) ++ prettyAt (level + 1) item ++ prettyItems (level + 1) rest ++
      newline level ++ "]"
  | object [] => "\x7b\x7d"
  | object ((name, value) :: rest) =>
    "\x7b" ++ newline (level + 1) ++ quote name ++ ": " ++ prettyAt (level + 1) value ++
      prettyMembers (level + 1) rest ++ newline level ++ "\x7d"

/-- The items behind the first one. -/
def prettyItems (level : Nat) : List Json → String
  | [] => ""
  | item :: rest => "," ++ newline level ++ prettyAt level item ++ prettyItems level rest

/-- The members behind the first one. -/
def prettyMembers (level : Nat) : List (String × Json) → String
  | [] => ""
  | (name, value) :: rest =>
    "," ++ newline level ++ quote name ++ ": " ++ prettyAt level value ++ prettyMembers level rest

end

/-- The text of a value. -/
def pretty (j : Json) : String := prettyAt 0 j

/-- A text, or null. -/
def ofText? : Option String → Json
  | some s => text s
  | none => null

/-- A natural number, or null. -/
def ofNatural? : Option Nat → Json
  | some n => natural n
  | none => null

end Json

end XPathBench

import XPathBench.Decimal.Layout
import XPathBench.Decimal.Read
import XPathBench.XPath.Place

/-!
Values of expressions and their conversions.

* `Value`: booleans, numbers, strings and node-sets, the latter in document order
* `Value.toBoolean`, `Value.toNumber`, `Value.toText`
* `Value.equals`: equality of two values, of one kind or not
-/

namespace XPathBench.XPath

/-- A value of an expression. -/
inductive Value where
  | boolean (value : Bool)
  | number (value : Float)
  | string (value : String)
  /-- Places in document order, each once. -/
  | nodeSet (places : List Place)

/-- The number that a text denotes, without the white space around it; not a number if it denotes
none. -/
def numberOf (text : String) : Float :=
  (Decimal.readFloat? (Text.trimChars text.toList)).getD (Float.ofBits 0x7FF8000000000000)

namespace Value

/-- The text of a truth value. -/
def booleanText (b : Bool) : String := if b then "true" else "false"

/-- The value as a text; a node-set has the text of its first node. -/
def toText : Value → String
  | boolean b => booleanText b
  | number x => Decimal.plainNumber x
  | string s => s
  | nodeSet places => (places.head?.map Place.stringValue).getD ""

/-- The value as a number. -/
def toNumber : Value → Float
  | boolean b => if b then 1 else 0
  | number x => x
  | string s => numberOf s
  | nodeSet places => numberOf ((places.head?.map Place.stringValue).getD "")

/-- The value as a truth value. -/
def toBoolean : Value → Bool
  | boolean b => b
  | number x => !(x == 0 || x.isNaN)
  | string s => s ≠ ""
  | nodeSet places => !places.isEmpty

/-- The values are equal. A node-set is equal to another value if one of its nodes is. -/
def equals : Value → Value → Bool
  | nodeSet a, nodeSet b => a.any fun p => b.any fun q => p.stringValue == q.stringValue
  | nodeSet a, number x => a.any fun p => numberOf p.stringValue == x
  | number x, nodeSet a => a.any fun p => numberOf p.stringValue == x
  | nodeSet a, string s => a.any fun p => p.stringValue == s
  | string s, nodeSet a => a.any fun p => p.stringValue == s
  | boolean a, b => a == b.toBoolean
  | a, boolean b => a.toBoolean == b
  | number a, b => a == b.toNumber
  | a, number b => a.toNumber == b
  | string a, string b => a == b

/-- The kind of a value in an error message. -/
def kindName : Value → String
  | boolean _ => "Boolean"
  | number _ => "Number"
  | string _ => "String"
  | nodeSet _ => "Nodeset"

end Value

end XPathBench.XPath

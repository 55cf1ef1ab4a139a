import XPathBench.Decimal.Shortest

/-!
Writing floating-point numbers. The digits are the shortest that identify the number; a `Layout`
holds the decisions of one output format.

* `Layout.write`: a finite number in a layout
* `plainNumber`: the text of a number without an exponent, with names for the special values
-/

namespace XPathBench.Decimal

/-- What an output format decides about numbers. -/
structure Layout where
  /-- The power of ten of the leading digit from which on numbers are written without exponent. -/
  plainFrom : Option Int
  /-- The power of ten of the leading digit from which on numbers are written with exponent. -/
  plainBelow : Option Int
  /-- Whole numbers end in a point and a zero. -/
  pointZero : Bool
  /-- An exponent that is not negative has a sign. -/
  plusSign : Bool
  tie : Tie

namespace Layout

/-- The number is written without exponent. -/
def isPlain (l : Layout) (leading : Int) : Bool :=
  (l.plainFrom.all fun low => decide (low ≤ leading)) &&
    (l.plainBelow.all fun high => decide (leading < high))

/-- A number of zeros. -/
def zeros (n : Nat) : String := String.ofList (List.replicate n '0')

/-- Digits and exponent without an exponent sign. -/
def plain (l : Layout) (digits : List Char) (exponent : Int) : String :=
  let point : Int := digits.length + exponent
  if 0 ≤ exponent then
    String.ofList digits ++ zeros exponent.toNat ++ if l.pointZero then ".0" else ""
  else if 0 < point then
    String.ofList (digits.take point.toNat) ++ "." ++ String.ofList (digits.drop point.toNat)
  else "0." ++ zeros (-point).toNat ++ String.ofList digits

/-- Digits and exponent with an exponent sign behind the digits. -/
def scientific (l : Layout) (digits : List Char) (exponent : Int) : String :=
  let leading : Int := digits.length + exponent - 1
  let fraction := match digits.tail with
    | [] => ""
    | rest => "." ++ String.ofList rest
  let sign := if leading < 0 then "-" else if l.plusSign then "+" else ""
  String.ofList (digits.take 1) ++ fraction ++ "e" ++ sign ++ toString leading.natAbs

/-- A decimal in the layout. -/
def numeral (l : Layout) (d : Numeral) : String :=
  let digits := Nat.toDigits 10 d.digits
  if l.isPlain (digits.length + d.exponent - 1) then l.plain digits d.exponent
  else l.scientific digits d.exponent

/-- A finite number in the layout; a negative zero keeps its sign. -/
def write (l : Layout) (x : Float) : String :=
  (if isNegative x then "-" else "") ++ l.numeral ((Binary.ofBits x.toBits).shortest l.tie)

end Layout

/-- Results show numbers without exponent, and whole numbers without a point. -/
def resultLayout : Layout where
  plainFrom := none
  plainBelow := none
  pointZero := false
  plusSign := false
  tie := .upward

/-- The special values by name, other numbers in the layout of results. -/
def plainNumber (x : Float) : String :=
  if x.isNaN then "NaN"
  else if x.isInf then (if isNegative x then "-Infinity" else "Infinity")
  else resultLayout.write x

/-- The number as a result shows it: both zeros are `0`. -/
def resultNumber (x : Float) : String := if x == 0 then "0" else plainNumber x

end XPathBench.Decimal

/-!
Reading floating-point numbers from text: an optional sign, then digits with an optional point and
an optional exponent, or one of the words for infinity and for no number, in any case of letters.

* `readFloat?`: the number nearest to what the text denotes
* `ofDigits`: the number nearest to a decimal given by its digits
-/

namespace XPathBench.Decimal

/-- The value of a run of digits. -/
def digitsValue (digits : List Char) : Nat :=
  digits.foldl (fun value c => value * 10 + (c.toNat - '0'.toNat)) 0

/-- The number nearest to `mantissa * 10 ^ exponent`. Magnitudes beyond the reach of the format are
answered without computing the power. -/
def scaled (mantissa : Nat) (exponent : Int) : Float :=
  let leading := exponent + (Nat.toDigits 10 mantissa).length
  if mantissa = 0 ∨ leading < -400 then 0
  else if 400 < leading then Float.ofBits 0x7FF0000000000000
  else Float.ofScientific mantissa (exponent < 0) exponent.natAbs

/-- The number nearest to the decimal with these digits before and after the point. -/
def ofDigits (whole fraction : List Char) (exponent : Int) : Float :=
  scaled (digitsValue (whole ++ fraction)) (exponent - fraction.length)

/-- The exponent that ends a number: nothing, or a letter, an optional sign and digits. -/
def readExponent? : List Char → Option Int
  | [] => some 0
  | e :: rest =>
    if e = 'e' ∨ e = 'E' then
      let (negative, digits) := match rest with
        | '-' :: digits => (true, digits)
        | '+' :: digits => (false, digits)
        | digits => (false, digits)
      if digits ≠ [] ∧ digits.all Char.isDigit then
        some (if negative then -(digitsValue digits : Int) else digitsValue digits)
      else none
    else none

/-- A magnitude: a word, or digits with an optional point and exponent. -/
def readMagnitude? (cs : List Char) : Option Float :=
  let word := String.ofList (cs.map Char.toLower)
  if word = "inf" ∨ word = "infinity" then some (Float.ofBits 0x7FF0000000000000)
  else if word = "nan" then some (Float.ofBits 0x7FF8000000000000)
  else
    let whole := cs.takeWhile Char.isDigit
    let (fraction, rest) := match cs.dropWhile Char.isDigit with
      | '.' :: rest => (rest.takeWhile Char.isDigit, rest.dropWhile Char.isDigit)
      | rest => ([], rest)
    if whole = [] ∧ fraction = [] then none
    else (readExponent? rest).map (ofDigits whole fraction)

/-- The number that a text denotes. -/
def readFloat? : List Char → Option Float
  | '-' :: rest => (readMagnitude? rest).map fun x => -x
  | '+' :: rest => readMagnitude? rest
  | cs => readMagnitude? cs

end XPathBench.Decimal

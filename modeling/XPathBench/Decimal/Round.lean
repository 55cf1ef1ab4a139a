import XPathBench.Decimal.Shortest

/-!
Rounding and remainders of floating-point numbers.

* `roundHalfUp`: the nearest whole number, a half going up
* `remainder`: the remainder of a division that is cut off towards zero
-/

namespace XPathBench.Decimal

/-- The nearest whole number; a half goes to the greater one. The result has the sign of the number,
so that numbers between minus a half and zero give a negative zero. -/
def roundHalfUp (x : Float) : Float :=
  let below := x.floor
  if x == below then x
  else
    let nearest := (2 * x - below).floor
    if isNegative x == isNegative nearest then nearest else -nearest

/-- The remainder of dividing `x` by `y` with a quotient cut off towards zero. It is computed
exactly and has the sign of `x`. -/
def remainder (x y : Float) : Float :=
  if x.isNaN || y.isNaN || x.isInf || y == 0 then Float.ofBits 0x7FF8000000000000
  else if y.isInf then x
  else
    let a := Binary.ofBits x.toBits
    let b := Binary.ofBits y.toBits
    let unit := min a.exponent b.exponent
    let left := (a.mantissa * Nat.pow 2 (a.exponent - unit).toNat) %
      (b.mantissa * Nat.pow 2 (b.exponent - unit).toNat)
    let magnitude := (Float.ofNat left).scaleB unit
    if isNegative x then -magnitude else magnitude

end XPathBench.Decimal

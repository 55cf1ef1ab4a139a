/-!
The shortest decimal that identifies a binary floating-point number. A finite number is `m * 2 ^ q`;
the reals that round to it form an interval, and of the decimals in that interval one with the
fewest digits is taken, among those the one nearest to the number. All arithmetic is exact.

* `Binary`: a finite magnitude, `Binary.ofBits`
* `Binary.readsBack`: whether a decimal rounds to the number
* `Binary.shortest`: the decimal chosen
-/

namespace XPathBench.Decimal

/-- A finite magnitude `mantissa * 2 ^ exponent`. -/
structure Binary where
  mantissa : Nat
  exponent : Int
  /-- The gap to the next smaller number is half the gap to the next greater one. -/
  narrowBelow : Bool
deriving DecidableEq, Repr

/-- The sign bit of a number. -/
def isNegative (x : Float) : Bool := x.toBits >>> 63 == 1

/-- The magnitude held by the bits of a finite number. -/
def Binary.ofBits (bits : UInt64) : Binary :=
  let e := ((bits >>> 52) &&& 0x7FF).toNat
  let f := (bits &&& 0xFFFFFFFFFFFFF).toNat
  if e = 0 then ⟨f, -1074, false⟩ else ⟨0x10000000000000 + f, (e : Int) - 1075, f = 0 && 1 < e⟩

/-- The decimal `digits * 10 ^ exponent`. -/
structure Numeral where
  digits : Nat
  exponent : Int
deriving DecidableEq, Repr

/-- Which of two equally near neighbours is taken. -/
inductive Tie where
  | toEven
  | upward
deriving DecidableEq, Repr

/-- Compares `a * 10 ^ i` with `n * 2 ^ j`. -/
def compareScaled (a : Nat) (i : Int) (n : Nat) (j : Int) : Ordering :=
  compare (a * Nat.pow 10 i.toNat * Nat.pow 2 (-j).toNat)
    (n * Nat.pow 2 j.toNat * Nat.pow 10 (-i).toNat)

namespace Binary

/-- The decimal is among the reals that round to the number; the ends of that interval belong to it
exactly when the mantissa is even. -/
def readsBack (x : Binary) (d : Numeral) : Bool :=
  let low := 4 * x.mantissa - if x.narrowBelow then 1 else 2
  let high := 4 * x.mantissa + 2
  let closed := x.mantissa % 2 == 0
  let atLow := compareScaled d.digits d.exponent low (x.exponent - 2)
  let atHigh := compareScaled d.digits d.exponent high (x.exponent - 2)
  (atLow == .gt || closed && atLow == .eq) && (atHigh == .lt || closed && atHigh == .eq)

/-- The whole part of the number measured in units of `10 ^ unit`. -/
def floorIn (x : Binary) (unit : Int) : Nat :=
  (x.mantissa * Nat.pow 2 x.exponent.toNat * Nat.pow 10 (-unit).toNat) /
    (Nat.pow 2 (-x.exponent).toNat * Nat.pow 10 unit.toNat)

/-- The first of `steps` exponents from `k` upward whose power of ten exceeds the number. -/
def scaleFrom (x : Binary) : Nat → Int → Int
  | 0, k => k
  | steps + 1, k => if x.floorIn k = 0 then k else scaleFrom x steps (k + 1)

/-- The least `k` such that the number is below `10 ^ k`. The search starts just below the power of
ten that the binary exponent implies; a binary digit is worth about 0.30103 decimal ones. -/
def scale (x : Binary) : Int :=
  x.scaleFrom 8 (Int.fdiv ((x.mantissa.log2 + x.exponent) * 30103) 100000 - 1)

/-- A decimal with as many digits as reach down to `10 ^ unit` that reads back, if there is one. -/
def onGrid? (x : Binary) (tie : Tie) (unit : Int) : Option Numeral :=
  let below := x.floorIn unit
  match x.readsBack ⟨below, unit⟩, x.readsBack ⟨below + 1, unit⟩ with
  | true, false => some ⟨below, unit⟩
  | false, true => some ⟨below + 1, unit⟩
  | false, false => none
  | true, true =>
    match compareScaled (2 * below + 1) unit (2 * x.mantissa) x.exponent, tie with
    | .gt, _ => some ⟨below, unit⟩
    | .lt, _ => some ⟨below + 1, unit⟩
    | .eq, .upward => some ⟨below + 1, unit⟩
    | .eq, .toEven => some ⟨if below % 2 = 0 then below else below + 1, unit⟩

/-- The number itself as a decimal. -/
def exact (x : Binary) : Numeral :=
  ⟨x.mantissa * Nat.pow 2 x.exponent.toNat * Nat.pow 5 (-x.exponent).toNat, min x.exponent 0⟩

end Binary

/-- Moves up to `steps` trailing zeros of the digits into the exponent. -/
def Numeral.strip : Nat → Numeral → Numeral
  | 0, d => d
  | steps + 1, d => if d.digits % 10 = 0 then strip steps ⟨d.digits / 10, d.exponent + 1⟩ else d

/-- The decimal with the fewest digits that identifies the number; zero is `0 * 10 ^ 0`. Seventeen
digits always suffice, so the last alternative is never needed. -/
def Binary.shortest (x : Binary) (tie : Tie) : Numeral :=
  if x.mantissa = 0 then ⟨0, 0⟩
  else
    let k := x.scale
    let found := (List.range 17).findSome? fun n => x.onGrid? tie (k - (n + 1 : Nat))
    (found.getD x.exact).strip 800

end XPathBench.Decimal

/-!
Reading bytes as UTF-8. The reader is a machine that owes, after a leading byte, the ranges in which
the bytes that follow have to lie.

* `Utf8.decode`: the characters of a byte sequence, or the first place where it is malformed
* `Utf8.Malformed.message`: that place in words
-/

namespace XPathBench.Utf8

/-- The first place where a byte sequence is no UTF-8. -/
inductive Malformed where
  /-- `count` bytes from `index` on can begin no character. -/
  | invalid (count index : Nat)
  /-- The sequence ends inside the character that begins at `index`. -/
  | incomplete (index : Nat)
deriving DecidableEq, Repr

/-- The fault in words. -/
def Malformed.message : Malformed → String
  | .invalid count index => s!"invalid utf-8 sequence of {count} bytes from index {index}"
  | .incomplete index => s!"incomplete utf-8 byte sequence from index {index}"

/-- The value bits of a leading byte and the ranges of the bytes that it asks for. -/
def lead? (b : Nat) : Option (Nat × List (Nat × Nat)) :=
  let tail := (0x80, 0xBF)
  if b < 0x80 then some (b, [])
  else if 0xC2 ≤ b ∧ b ≤ 0xDF then some (b - 0xC0, [tail])
  else if b = 0xE0 then some (0, [(0xA0, 0xBF), tail])
  else if b = 0xED then some (0xD, [(0x80, 0x9F), tail])
  else if 0xE1 ≤ b ∧ b ≤ 0xEF then some (b - 0xE0, [tail, tail])
  else if b = 0xF0 then some (0, [(0x90, 0xBF), tail, tail])
  else if 0xF1 ≤ b ∧ b ≤ 0xF3 then some (b - 0xF0, [tail, tail, tail])
  else if b = 0xF4 then some (4, [(0x80, 0x8F), tail, tail])
  else none

/-- A character whose bytes are not all read yet. -/
structure Pending where
  /-- Where its leading byte stands. -/
  start : Nat
  /-- How many of its bytes are read. -/
  taken : Nat
  /-- The value of the bytes read. -/
  value : Nat
  /-- The ranges of the next byte and of those after it. -/
  next : Nat × Nat
  later : List (Nat × Nat)

/-- Reads bytes from `index` on. -/
def decodeFrom (index : Nat) : Option Pending → List UInt8 → Except Malformed (List Char)
  | none, [] => .ok []
  | some p, [] => .error (.incomplete p.start)
  | none, b :: rest => match lead? b.toNat with
    | none => .error (.invalid 1 index)
    | some (value, []) => (decodeFrom (index + 1) none rest).map (Char.ofNat value :: ·)
    | some (value, next :: later) =>
      decodeFrom (index + 1) (some ⟨index, 1, value, next, later⟩) rest
  | some p, b :: rest =>
    if p.next.1 ≤ b.toNat ∧ b.toNat ≤ p.next.2 then
      let value := p.value * 64 + b.toNat % 64
      match p.later with
      | [] => (decodeFrom (index + 1) none rest).map (Char.ofNat value :: ·)
      | next :: later =>
        decodeFrom (index + 1) (some ⟨p.start, p.taken + 1, value, next, later⟩) rest
    else .error (.invalid p.taken p.start)

/-- The text whose UTF-8 form is given. -/
def decode (bytes : List UInt8) : Except Malformed String :=
  (decodeFrom 0 none bytes).map String.ofList

end XPathBench.Utf8

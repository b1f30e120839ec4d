import ErrorDocs.Number.Binary64

/-!
# The fewest digits of a magnitude

Among the decimals that a magnitude is the nearest one to, those with the fewest digits are
looked for, and of these the one closest to the magnitude is taken. Everything is compared
exactly, by products of natural numbers.
-/

namespace ErrorDocs

/-- The decimal `coefficient * 10 ^ exponent`. -/
structure Decimal where
  coefficient : Nat
  exponent : Int
deriving DecidableEq, Repr, Inhabited

namespace Decimal

/-- The digits of the coefficient. -/
def digits (d : Decimal) : List Char :=
  Nat.toDigits 10 d.coefficient

/-- The exponent of ten that the first digit stands for. -/
def leadExponent (d : Decimal) : Int :=
  d.exponent + (d.digits.length - 1 : Nat)

/-- The two sides of a comparison of `c * 10 ^ p` with `b * 2 ^ q`, as natural numbers. -/
def sides (c : Nat) (p : Int) (b : Nat) (q : Int) : Nat × Nat :=
  (c * Nat.pow 10 p.toNat * Nat.pow 2 (-q).toNat, b * Nat.pow 2 q.toNat * Nat.pow 10 (-p).toNat)

/-- The same decimal with no zero at the end of its coefficient; `fuel` bounds their number. -/
def dropZeros : Nat → Decimal → Decimal
  | 0, d => d
  | fuel + 1, d =>
    if d.coefficient ≠ 0 ∧ d.coefficient % 10 = 0 then
      dropZeros fuel ⟨d.coefficient / 10, d.exponent + 1⟩
    else d

end Decimal

namespace Magnitude

/-- The exponent of ten of the first digit of the ratio `num / den`. -/
def leadExponent (num den : Nat) : Int :=
  if num < den then -((Nat.toDigits 10 ((den - 1) / num)).length : Int)
  else ((Nat.toDigits 10 (num / den)).length : Int) - 1

/-- Decimals that round to the magnitude `m`. In units of a quarter of its last place, the
magnitude reaches two to either side, but only one down to a power of two; the ends belong to it
when its significand is even. -/
def reads (m : Magnitude) (d : Decimal) : Bool :=
  let q := m.exponent - 2
  let v := 4 * m.significand
  let below := if m.significand = Nat.pow 2 52 ∧ m.exponent > minExponent then 1 else 2
  let (c, lo) := Decimal.sides d.coefficient d.exponent (v - below) q
  let (c', hi) := Decimal.sides d.coefficient d.exponent (v + 2) q
  if m.significand % 2 = 0 then lo ≤ c && c' ≤ hi else lo < c && c' < hi

/-- The decimal of `n` digits just below the magnitude, or the magnitude itself. -/
def floorDecimal (m : Magnitude) (n : Nat) : Decimal :=
  let (num, den) := m.ratio
  let p := leadExponent num den - ((n : Int) - 1)
  ⟨num * Nat.pow 10 (-p).toNat / (den * Nat.pow 10 p.toNat), p⟩

/-- The closest decimal of `n` digits that rounds to the magnitude, if one does. -/
def decimalOf? (m : Magnitude) (n : Nat) : Option Decimal :=
  let low := m.floorDecimal n
  let high : Decimal := ⟨low.coefficient + 1, low.exponent⟩
  match m.reads low, m.reads high with
  | false, false => none
  | true, false => some low
  | false, true => some high
  | true, true =>
    let (middle, v) :=
      Decimal.sides (2 * low.coefficient + 1) low.exponent (2 * m.significand) m.exponent
    if v < middle || (v == middle && low.coefficient % 2 == 0) then some low else some high

/-- The shortest decimal that rounds to the magnitude. Seventeen digits are always enough. -/
def shortest (m : Magnitude) : Decimal :=
  if m.significand = 0 then ⟨0, 0⟩
  else
    match (List.range' 1 17).findSome? m.decimalOf? with
    | some d => d.dropZeros 400
    | none => ⟨0, 0⟩

end Magnitude

end ErrorDocs

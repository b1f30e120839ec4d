/-!
# Binary floating point

A finite number of the format binary64 is a sign and a magnitude `significand * 2 ^ exponent`
with a significand of at most 53 bits. All results are the exact ones rounded to the nearest
number of the format, a half going to the even significand; a result that is too large is none.
-/

namespace ErrorDocs

/-- A magnitude of the format binary64, `significand * 2 ^ exponent`. -/
structure Magnitude where
  significand : Nat
  exponent : Int
deriving DecidableEq, Repr, Inhabited

/-- A finite number of the format binary64. -/
structure Binary64 where
  negative : Bool
  magnitude : Magnitude
deriving DecidableEq, Repr, Inhabited

namespace Magnitude

/-- The exponent of the smallest magnitudes. -/
def minExponent : Int := -1074

/-- The exponent of the largest magnitudes. -/
def maxExponent : Int := 971

/-- The magnitude of zero. -/
def zero : Magnitude := ⟨0, minExponent⟩

/-- The quotient nearest to `num / den`, a half going to the even one. -/
def nearestEven (num den : Nat) : Nat :=
  let q := num / den
  let r := num % den
  if 2 * r > den || (2 * r == den && q % 2 == 1) then q + 1 else q

/-- The ratio `num / den` in units of `2 ^ e`. -/
def inUnits (num den : Nat) (e : Int) : Nat × Nat :=
  if e < 0 then (num * Nat.pow 2 (-e).toNat, den) else (num, den * Nat.pow 2 e.toNat)

/-- The exponent in units of which `num / den` has 53 bits, or the smallest one. -/
def exponentOf (num den : Nat) : Int :=
  let e := max ((num.log2 : Int) - (den.log2 : Int) - 53) minExponent
  let (n, d) := inUnits num den e
  if n / d < Nat.pow 2 53 then e else e + 1

/-- The magnitude nearest to the ratio `num / den`. -/
def ofRatio? (num den : Nat) : Option Magnitude :=
  if num = 0 then some zero
  else
    let e := exponentOf num den
    let (n, d) := inUnits num den e
    let q := nearestEven n d
    let m : Magnitude := if q = Nat.pow 2 53 then ⟨Nat.pow 2 52, e + 1⟩ else ⟨q, e⟩
    if m.exponent > maxExponent then none else some m

/-- A magnitude as a ratio of natural numbers. -/
def ratio (m : Magnitude) : Nat × Nat :=
  if m.exponent < 0 then (m.significand, Nat.pow 2 (-m.exponent).toNat)
  else (m.significand * Nat.pow 2 m.exponent.toNat, 1)

/-- The product of two magnitudes. -/
def mul? (a b : Magnitude) : Option Magnitude :=
  ofRatio? (a.ratio.1 * b.ratio.1) (a.ratio.2 * b.ratio.2)

/-- The quotient of two magnitudes. -/
def div? (a b : Magnitude) : Option Magnitude :=
  ofRatio? (a.ratio.1 * b.ratio.2) (a.ratio.2 * b.ratio.1)

/-- Magnitudes without a fraction. -/
def isWhole (m : Magnitude) : Bool :=
  m.ratio.1 % m.ratio.2 == 0

end Magnitude

namespace Binary64

/-- Numbers without a fraction. -/
def isWhole (x : Binary64) : Bool :=
  x.magnitude.isWhole

/-- Numbers below zero; the negative zero is none of them. -/
def isBelowZero (x : Binary64) : Bool :=
  x.negative && x.magnitude.significand != 0

end Binary64

end ErrorDocs

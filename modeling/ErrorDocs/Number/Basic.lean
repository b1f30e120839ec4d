import ErrorDocs.Number.Shortest

/-!
# Numbers

A number is an integer or a binary64 number. Which of the two a numeral stands for depends on how
it is written: a numeral with a fraction or an exponent is never an integer.

* `Numeral.value?` is the number that a decimal numeral stands for.
* `Number.render` writes a number.
-/

namespace ErrorDocs

/-- An integer or a floating point number. -/
inductive Number where
  | int (n : Int)
  | float (x : Binary64)
deriving DecidableEq, Repr, Inhabited

/-- A decimal numeral: its sign, the digits before the point, those after it, and the exponent. -/
structure Numeral where
  negative : Bool
  whole : List Char
  fraction : Option (List Char) := none
  exponent : Option (Bool × List Char) := none
deriving DecidableEq, Repr, Inhabited

namespace Numeral

/-- The number a digit stands for. -/
def digitValue (c : Char) : Nat :=
  c.toNat - '0'.toNat

/-- The natural number that digits stand for. -/
def natOf (digits : List Char) : Nat :=
  digits.foldl (fun n c => n * 10 + digitValue c) 0

/-- The significands that are kept exactly: those of 64 bits. -/
def isExact (n : Nat) : Bool :=
  n < Nat.pow 2 64

/-- The largest power of ten of the format. -/
def maxTenPower : Nat := 308

/-- The digits before the point: an exact significand, and how many digits it leaves out. -/
def collectWhole (digits : List Char) : Nat × Nat :=
  digits.foldl
    (fun acc c =>
      let n := acc.1 * 10 + digitValue c
      if acc.2 == 0 && isExact n then (n, 0) else (acc.1, acc.2 + 1))
    (0, 0)

/-- The digits after the point, added to a significand as long as it stays exact; the rest of them
are left out. The second result is how many were added, the third whether all were. -/
def collectFraction (significand : Nat) (digits : List Char) : Nat × Nat × Bool :=
  digits.foldl
    (fun acc c =>
      let n := acc.1 * 10 + digitValue c
      if acc.2.2 && isExact n then (n, acc.2.1 + 1, true) else (acc.1, acc.2.1, false))
    (significand, 0, true)

/-- A power of ten, rounded. -/
def tenPower? (k : Nat) : Option Magnitude :=
  Magnitude.ofRatio? (Nat.pow 10 k) 1

/-- A magnitude times a power of ten. -/
def scaleUp? (m : Magnitude) (k : Nat) : Option Magnitude :=
  if k ≤ maxTenPower then (tenPower? k).bind m.mul?
  else if m.significand = 0 then some m
  else none

/-- A magnitude divided `n` times by the largest power of ten. -/
def stepDown? (m : Magnitude) : Nat → Option Magnitude
  | 0 => some m
  | n + 1 =>
    if m.significand = 0 then some m
    else
      match (tenPower? maxTenPower).bind m.div? with
      | none => none
      | some m' => stepDown? m' n

/-- A magnitude over a power of ten, in as many steps as the largest power needs. -/
def scaleDown? (m : Magnitude) (k : Nat) : Option Magnitude :=
  let steps := (k - 1) / maxTenPower
  match stepDown? m steps, tenPower? (k - steps * maxTenPower) with
  | some m', some p => m'.div? p
  | _, _ => none

/-- The magnitude read for `significand * 10 ^ exponent`: significand and power of ten are
rounded, and so is their product or quotient. -/
def magnitude? (significand : Nat) (exponent : Int) : Option Magnitude :=
  (Magnitude.ofRatio? significand 1).bind fun m =>
    if exponent < 0 then scaleDown? m (-exponent).toNat else scaleUp? m exponent.toNat

/-- The number a numeral stands for, unless it is too large. Integers have 64 bits, with a sign
when they are negative; there is no negative integer zero. -/
def value? (l : Numeral) : Option Number :=
  let (significand, omitted) := collectWhole l.whole
  let float (significand : Nat) (exponent : Int) : Option Number :=
    (magnitude? significand exponent).map fun m => .float ⟨l.negative, m⟩
  match l.fraction, l.exponent with
  | none, none =>
    if omitted ≠ 0 then float significand omitted
    else if !l.negative then some (.int significand)
    else if 1 ≤ significand ∧ significand ≤ Nat.pow 2 63 then some (.int (-significand))
    else float significand 0
  | fraction, exponent =>
    let (significand, added, _) := collectFraction significand (fraction.getD [])
    let shift : Int :=
      match exponent with
      | none => 0
      | some (below, digits) => if below then -(natOf digits : Int) else natOf digits
    float significand ((omitted : Int) - added + shift)

end Numeral

namespace Number

/-- The number a hexadecimal digit stands for. -/
def hexValue? (c : Char) : Option Nat :=
  if '0' ≤ c ∧ c ≤ '9' then some (c.toNat - '0'.toNat)
  else if 'a' ≤ c ∧ c ≤ 'f' then some (c.toNat - 'a'.toNat + 10)
  else if 'A' ≤ c ∧ c ≤ 'F' then some (c.toNat - 'A'.toNat + 10)
  else none

/-- The natural number that hexadecimal digits stand for. -/
def natOfHex (digits : List Char) : Nat :=
  digits.foldl (fun n c => n * 16 + (hexValue? c).getD 0) 0

/-- The number hexadecimal digits stand for, if it has at most 63 bits. -/
def ofHex? (negative : Bool) (digits : List Char) : Option Number :=
  let n := natOfHex digits
  if n < Nat.pow 2 63 then some (.int (if negative then -n else n)) else none

/-- A natural number, as text. -/
def renderNat (n : Nat) : List Char :=
  Nat.toDigits 10 n

/-- A natural number, as text in a message. -/
def natText (n : Nat) : String :=
  String.ofList (renderNat n)

/-- Where the point and the exponent of a floating point number are written: without an exponent
if that of the first digit lies between `positionalFrom` and `positionalTo`. -/
structure Layout where
  positionalFrom : Int
  positionalTo : Int

/-- Numbers are written without an exponent from `0.00001` up to sixteen digits. -/
def layout : Layout := ⟨-5, 15⟩

/-- Digits and the exponent of the first one, as text. A whole number keeps one zero after the
point, and an exponent has its sign. -/
def renderDigits (l : Layout) (digits : List Char) (lead : Int) : List Char :=
  if l.positionalFrom ≤ lead ∧ lead ≤ l.positionalTo then
    if lead < 0 then '0' :: '.' :: (List.replicate ((-lead).toNat - 1) '0' ++ digits)
    else
      let n := lead.toNat + 1
      if digits.length ≤ n then digits ++ List.replicate (n - digits.length) '0' ++ ['.', '0']
      else digits.take n ++ '.' :: digits.drop n
  else
    let fraction := if digits.length ≤ 1 then [] else '.' :: digits.drop 1
    let sign := if lead < 0 then '-' else '+'
    digits.take 1 ++ fraction ++ 'e' :: sign :: renderNat lead.natAbs

/-- A magnitude, as text. -/
def renderMagnitude (m : Magnitude) : List Char :=
  let d := m.shortest
  renderDigits layout d.digits d.leadExponent

/-- An integer, as text. -/
def renderInt (n : Int) : List Char :=
  if n < 0 then '-' :: renderNat n.natAbs else renderNat n.natAbs

/-- A number, as text. -/
def render : Number → List Char
  | .int n => renderInt n
  | .float x => if x.negative then '-' :: renderMagnitude x.magnitude else renderMagnitude x.magnitude

end Number

end ErrorDocs

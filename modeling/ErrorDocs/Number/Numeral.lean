import ErrorDocs.Number.Basic

/-!
# Reading numerals

A decimal numeral is an optional minus sign, digits without a needless leading zero, an optional
fraction, and an optional exponent. `Numeral.parse?` reads a whole text as a numeral.
-/

namespace ErrorDocs.Numeral

/-- The digits from 0 to 9. -/
def isDigit (c : Char) : Bool :=
  c.isDigit

/-- The digits at the start of a text, and the rest. -/
def spanDigits (s : List Char) : List Char × List Char :=
  (s.takeWhile isDigit, s.dropWhile isDigit)

/-- Reads the digits before the point. -/
def parseWhole? (s : List Char) : Option (List Char × List Char) :=
  match spanDigits s with
  | ([], _) => none
  | (['0'], rest) => some (['0'], rest)
  | ('0' :: _, _) => none
  | (digits, rest) => some (digits, rest)

/-- Reads a point and the digits after it, if there is a point. -/
def parseFraction? : List Char → Option (Option (List Char) × List Char)
  | '.' :: s =>
    match spanDigits s with
    | ([], _) => none
    | (digits, rest) => some (some digits, rest)
  | s => some (none, s)

/-- Reads the digits of an exponent to the end of the text. -/
def parseExponentDigits? (below : Bool) (s : List Char) : Option (Bool × List Char) :=
  match spanDigits s with
  | ([], _) => none
  | (digits, []) => some (below, digits)
  | _ => none

/-- Reads an exponent to the end of the text, if the text is not yet at its end. -/
def parseExponent? : List Char → Option (Option (Bool × List Char))
  | [] => some none
  | c :: s =>
    if c = 'e' ∨ c = 'E' then
      match s with
      | '+' :: s' => (parseExponentDigits? false s').map some
      | '-' :: s' => (parseExponentDigits? true s').map some
      | s' => (parseExponentDigits? false s').map some
    else none

/-- Reads a numeral without its sign. -/
def parseUnsigned? (negative : Bool) (s : List Char) : Option Numeral :=
  match parseWhole? s with
  | none => none
  | some (whole, s) =>
    match parseFraction? s with
    | none => none
    | some (fraction, s) =>
      match parseExponent? s with
      | none => none
      | some exponent => some { negative, whole, fraction, exponent }

/-- The numeral that a text is. -/
def parse? : List Char → Option Numeral
  | '-' :: s => parseUnsigned? true s
  | s => parseUnsigned? false s

end ErrorDocs.Numeral

import ErrorDocs.Number.Basic

/-!
# What is wrong with a commented JSON text

A text in the commented dialect is refused for one cause at one place. The place is a number of
characters, and is shown as a line and a column.
-/

namespace ErrorDocs.Json.Commented

/-- Why a text is refused. -/
inductive Fault where
  | unexpectedToken
  | unterminatedComment
  | unterminatedString
  | invalidEscape
  | invalidEscapeInDoubleQuotes
  | invalidEscapeInSingleQuotes
  | expectedFourHexDigits
  /-- The first unit of a pair with nothing after it; the digits as they are written. -/
  | loneHighSurrogate (digits : List Char)
  /-- The first unit of a pair with some other unit after it. -/
  | highSurrogateWithoutLow (digits : List Char)
  /-- The second unit of a pair with no first one. -/
  | loneLowSurrogate (digits : List Char)
  | expectedDigitAfterSign
  | expectedDigit
  | expectedExponent
  | unexpectedCloseBracket
  | unexpectedCloseBrace
  | unexpectedComma
  | unexpectedColon
  | unexpectedWord
  | unexpectedTokenInObject
  | expectedColon
  | expectedValue
  | unterminatedObject
  | unterminatedArray
  | severalValues
deriving DecidableEq, Repr

/-- What is said of an escape that is no character. -/
def surrogateMessage (digits : List Char) (problem : String) : String :=
  "Invalid unicode escape sequence. '" ++ String.ofList digits ++ " (" ++ problem ++
    ")' is not a valid UTF8 character"

/-- The text that states a cause. -/
def Fault.message : Fault → String
  | .unexpectedToken => "Unexpected token"
  | .unterminatedComment => "Unterminated comment block"
  | .unterminatedString => "Unterminated string literal"
  | .invalidEscape => "Invalid escape"
  | .invalidEscapeInDoubleQuotes => "Invalid escape in double quote string"
  | .invalidEscapeInSingleQuotes => "Invalid escape in single quote string"
  | .expectedFourHexDigits => "Expected four hex digits"
  | .loneHighSurrogate digits => surrogateMessage digits "unpaired high surrogate"
  | .highSurrogateWithoutLow digits =>
    surrogateMessage digits "high surrogate not followed by low surrogate"
  | .loneLowSurrogate digits => surrogateMessage digits "unpaired low surrogate"
  | .expectedDigitAfterSign => "Expected digit following negative sign"
  | .expectedDigit => "Expected digit"
  | .expectedExponent => "Expected plus, minus, or digit in number literal"
  | .unexpectedCloseBracket => "Unexpected close bracket"
  | .unexpectedCloseBrace => "Unexpected close brace"
  | .unexpectedComma => "Unexpected comma"
  | .unexpectedColon => "Unexpected colon"
  | .unexpectedWord => "Unexpected word"
  | .unexpectedTokenInObject => "Unexpected token in object"
  | .expectedColon => "Expected colon after the string or word in object property"
  | .expectedValue => "Expected value after colon in object property"
  | .unterminatedObject => "Unterminated object"
  | .unterminatedArray => "Unterminated array"
  | .severalValues => "Text cannot contain more than one JSON value"

/-- A cause, and the number of characters before the place it is found at. -/
structure Trouble where
  fault : Fault
  position : Nat
deriving DecidableEq, Repr

/-- The line and the column of a place, counted from 1: a line feed ends a line, and columns are
characters. -/
def lineAndColumn (text : List Char) (position : Nat) : Nat × Nat :=
  (text.take position).foldl
    (fun acc c => if c = '\n' then (acc.1 + 1, 1) else (acc.1, acc.2 + 1)) (1, 1)

/-- The text that states a cause and its place in a text. -/
def Trouble.message (text : List Char) (t : Trouble) : String :=
  let (line, column) := lineAndColumn text t.position
  t.fault.message ++ " on line " ++ Number.natText line ++ " column " ++ Number.natText column

end ErrorDocs.Json.Commented

import ErrorDocs.Json.Commented.Fault
import ErrorDocs.Json.Token
import ErrorDocs.Number.Numeral
import ErrorDocs.Text.Properties
import ErrorDocs.Text.Blank

/-!
# Tokens of the commented dialect

The dialect has blanks of any script and comments between its tokens, texts in either kind of
quotes, bare words, and numbers with a plus sign or in hexadecimal. A machine takes one character
at a time. It stops at the first fault; the tokens before the fault still count, because a reader
may refuse one of them first.

* `Mode` is what the machine is in the middle of, `lexStep` takes a character.
* `scan` gives the tokens of a text with their places, and how the text ends.
-/

namespace ErrorDocs.Json.Commented

/-- The part of a number that has been read last. -/
inductive NumberPart where
  | sign
  | zero
  | whole
  | point
  | fraction
  | exponentMark
  | exponentSign
  | exponentDigits
  | hexMark
  | hexDigits
deriving DecidableEq, Repr

namespace NumberPart

/-- The part after a digit before the point. -/
def ofDigit? (c : Char) : Option NumberPart :=
  if c = '0' then some .zero else if c.isDigit then some .whole else none

/-- The part that starts at a point or at the mark of an exponent. -/
def ofMark? (c : Char) : Option NumberPart :=
  if c = '.' then some .point else if c = 'e' ∨ c = 'E' then some .exponentMark else none

/-- The part that a further character belongs to, if it belongs to the number. -/
def advance? (part : NumberPart) (c : Char) : Option NumberPart :=
  match part with
  | .sign => ofDigit? c
  | .zero => if c = 'x' ∨ c = 'X' then some .hexMark else ofMark? c
  | .whole => if c.isDigit then some .whole else ofMark? c
  | .point => if c.isDigit then some .fraction else none
  | .fraction =>
    if c.isDigit then some .fraction
    else if c = 'e' ∨ c = 'E' then some .exponentMark else none
  | .exponentMark =>
    if c = '+' ∨ c = '-' then some .exponentSign
    else if c.isDigit then some .exponentDigits else none
  | .exponentSign => if c.isDigit then some .exponentDigits else none
  | .exponentDigits => if c.isDigit then some .exponentDigits else none
  | .hexMark => if (Number.hexValue? c).isSome then some .hexDigits else none
  | .hexDigits => if (Number.hexValue? c).isSome then some .hexDigits else none

/-- What is missing if the number ends after this part. -/
def missing? : NumberPart → Option Fault
  | .sign => some .expectedDigitAfterSign
  | .point => some .expectedDigit
  | .exponentMark => some .expectedExponent
  | .exponentSign => some .expectedDigit
  | .hexMark => some .expectedDigit
  | _ => none

end NumberPart

/-- The number that an unsigned text stands for. -/
def unsignedValue? (negative : Bool) (text : List Char) : Option Number :=
  match text with
  | '0' :: 'x' :: digits => Number.ofHex? negative digits
  | '0' :: 'X' :: digits => Number.ofHex? negative digits
  | text => (Numeral.parseUnsigned? negative text).bind Numeral.value?

/-- The number that a text with or without a sign stands for. -/
def numberValue? : List Char → Option Number
  | '-' :: text => unsignedValue? true text
  | '+' :: text => unsignedValue? false text
  | text => unsignedValue? false text

/-- A quoted text that is being read: where it starts, its quote, and its text, last first. -/
structure Quoted where
  start : Nat
  quote : Char
  text : List Char
deriving DecidableEq, Repr

/-- What the machine is in the middle of. -/
inductive Mode where
  /-- Between two tokens. -/
  | between
  /-- After a slash. -/
  | slash (start : Nat)
  /-- In a comment that ends with the line. -/
  | lineComment
  /-- In a comment that has to be closed; `star` after a star. -/
  | blockComment (start : Nat) (star : Bool)
  /-- In a quoted text. -/
  | quoted (q : Quoted)
  /-- After the backslash that starts an escape. -/
  | escape (q : Quoted) (backslash : Nat)
  /-- In the digits of a numeric escape, kept last first; `high` has the digits of the first unit
  of a pair, if this is its second. -/
  | code (q : Quoted) (backslash : Nat) (high : Option (List Char)) (digits : List Char)
  /-- After the first unit of a pair. -/
  | pair (q : Quoted) (backslash : Nat) (high : List Char)
  /-- After the backslash that follows the first unit of a pair. -/
  | pairEscape (q : Quoted) (backslash : Nat) (high : List Char)
  /-- In a number, whose text is kept last first. -/
  | number (start : Nat) (text : List Char) (part : NumberPart)
  /-- In a word, whose text is kept last first. -/
  | word (start : Nat) (text : List Char)
deriving DecidableEq, Repr

/-- A token and the number of characters before it. -/
structure Located where
  position : Nat
  token : Token
deriving DecidableEq, Repr

/-- The characters of a word. -/
def isWordChar (c : Char) : Bool :=
  Text.isAlphanumeric c || c == '-' || c == '_'

/-- The keyword that a text is. -/
def keyword? (text : List Char) : Option Token :=
  if text = ['t', 'r', 'u', 'e'] then some (.boolean true)
  else if text = ['f', 'a', 'l', 's', 'e'] then some (.boolean false)
  else if text = ['n', 'u', 'l', 'l'] then some .null
  else none

/-- The token of a number. -/
def numberToken (text : List Char) : Token :=
  .number text (numberValue? text)

/-- What a character leads to: the tokens so far, last first, and what the machine is in the
middle of then. A character may complete a token and be at fault itself. -/
structure Lexed where
  found : List Located
  next : Except Trouble Mode

/-- Takes a character between two tokens. -/
def lexBetween (position : Nat) (found : List Located) (c : Char) : Lexed :=
  if Text.isBlank c then ⟨found, .ok .between⟩
  else
    match punctuation? c with
    | some t => ⟨⟨position, t⟩ :: found, .ok .between⟩
    | none =>
      if c = '"' ∨ c = '\x27' then ⟨found, .ok (.quoted ⟨position, c, []⟩)⟩
      else if c = '/' then ⟨found, .ok (.slash position)⟩
      else if c = '-' ∨ c = '+' then ⟨found, .ok (.number position [c] .sign)⟩
      else
        match NumberPart.ofDigit? c with
        | some part => ⟨found, .ok (.number position [c] part)⟩
        | none =>
          if isWordChar c then ⟨found, .ok (.word position [c])⟩
          else ⟨found, .error ⟨.unexpectedToken, position⟩⟩

/-- Takes the character after a backslash. -/
def lexEscape (q : Quoted) (backslash : Nat) (c : Char) : Except Trouble Mode :=
  if c = 'u' then .ok (.code q backslash none [])
  else if c = '"' ∧ q.quote ≠ '"' then .error ⟨.invalidEscapeInSingleQuotes, backslash⟩
  else if c = '\x27' then
    if q.quote = '"' then .error ⟨.invalidEscapeInDoubleQuotes, backslash⟩
    else .ok (.quoted { q with text := c :: q.text })
  else
    match escaped? c with
    | some d => .ok (.quoted { q with text := d :: q.text })
    | none => .error ⟨.invalidEscape, backslash⟩

/-- Ends a numeric escape with four digits. -/
def lexCode (q : Quoted) (backslash : Nat) (high : Option (List Char)) (digits : List Char) :
    Except Trouble Mode :=
  let n := Number.natOfHex digits
  match high with
  | some h =>
    if isLowSurrogate n then
      .ok (.quoted { q with text := ofSurrogates (Number.natOfHex h) n :: q.text })
    else .error ⟨.highSurrogateWithoutLow h, backslash⟩
  | none =>
    if isHighSurrogate n then .ok (.pair q backslash digits)
    else if isLowSurrogate n then .error ⟨.loneLowSurrogate digits, backslash⟩
    else .ok (.quoted { q with text := Char.ofNat n :: q.text })

/-- Takes a character in the digits of a numeric escape. -/
def lexHex (q : Quoted) (backslash : Nat) (high : Option (List Char)) (digits : List Char)
    (c : Char) : Except Trouble Mode :=
  if (Number.hexValue? c).isSome then
    if digits.length < 3 then .ok (.code q backslash high (c :: digits))
    else lexCode q backslash high (c :: digits).reverse
  else .error ⟨.expectedFourHexDigits, backslash⟩

/-- Takes one character, `position` of which come before it. -/
def lexStep (position : Nat) (mode : Mode) (found : List Located) (c : Char) : Lexed :=
  match mode with
  | .between => lexBetween position found c
  | .slash start =>
    if c = '/' then ⟨found, .ok .lineComment⟩
    else if c = '*' then ⟨found, .ok (.blockComment start false)⟩
    else ⟨found, .error ⟨.unexpectedToken, start⟩⟩
  | .lineComment => ⟨found, .ok (if c = '\n' then .between else .lineComment)⟩
  | .blockComment start star =>
    ⟨found, .ok (if star ∧ c = '/' then .between else .blockComment start (c = '*'))⟩
  | .quoted q =>
    if c = q.quote then ⟨⟨q.start, .string q.text.reverse⟩ :: found, .ok .between⟩
    else if c = '\\' then ⟨found, .ok (.escape q position)⟩
    else ⟨found, .ok (.quoted { q with text := c :: q.text })⟩
  | .escape q backslash => ⟨found, lexEscape q backslash c⟩
  | .code q backslash high digits => ⟨found, lexHex q backslash high digits c⟩
  | .pair q backslash high =>
    if c = '\\' then ⟨found, .ok (.pairEscape q backslash high)⟩
    else ⟨found, .error ⟨.loneHighSurrogate high, backslash⟩⟩
  | .pairEscape q backslash high =>
    if c = 'u' then ⟨found, .ok (.code q backslash (some high) [])⟩
    else ⟨found, .error ⟨.loneHighSurrogate high, backslash⟩⟩
  | .number start text part =>
    match part.advance? c with
    | some part' => ⟨found, .ok (.number start (c :: text) part')⟩
    | none =>
      match part.missing? with
      | some fault => ⟨found, .error ⟨fault, position⟩⟩
      | none => lexBetween position (⟨start, numberToken text.reverse⟩ :: found) c
  | .word start text =>
    match keyword? text.reverse with
    | some t =>
      if Text.isAlphanumeric c then ⟨found, .ok (.word start (c :: text))⟩
      else lexBetween position (⟨start, t⟩ :: found) c
    | none =>
      if Text.isBlank c ∨ c = ':' then
        lexBetween position (⟨start, .word text.reverse⟩ :: found) c
      else if isWordChar c then ⟨found, .ok (.word start (c :: text))⟩
      else ⟨found, .error ⟨.unexpectedToken, start⟩⟩

/-- Ends the text, `position` characters of which there are. -/
def lexEnd (position : Nat) (mode : Mode) (found : List Located) :
    Except Trouble (List Located) :=
  match mode with
  | .between => .ok found
  | .lineComment => .ok found
  | .slash start => .error ⟨.unexpectedToken, start⟩
  | .blockComment start _ => .error ⟨.unterminatedComment, start⟩
  | .quoted q => .error ⟨.unterminatedString, q.start⟩
  | .escape q _ => .error ⟨.unterminatedString, q.start⟩
  | .code _ backslash _ _ => .error ⟨.expectedFourHexDigits, backslash⟩
  | .pair _ backslash high => .error ⟨.loneHighSurrogate high, backslash⟩
  | .pairEscape _ backslash high => .error ⟨.loneHighSurrogate high, backslash⟩
  | .number start text part =>
    match part.missing? with
    | some fault => .error ⟨fault, position⟩
    | none => .ok (⟨start, numberToken text.reverse⟩ :: found)
  | .word start text =>
    .ok (⟨start, (keyword? text.reverse).getD (.word text.reverse)⟩ :: found)

/-- The tokens of a text up to its end, where `fault` is none, or up to a fault. -/
structure Scan where
  tokens : List Located
  length : Nat
  trouble : Option Trouble
deriving DecidableEq, Repr

/-- The characters that are left, taken one after the other. -/
def scanFrom (position : Nat) (mode : Mode) (found : List Located) : List Char → Scan
  | [] =>
    match lexEnd position mode found with
    | .ok found' => ⟨found'.reverse, position, none⟩
    | .error t => ⟨found.reverse, position, some t⟩
  | c :: rest =>
    match lexStep position mode found c with
    | ⟨found', .ok mode'⟩ => scanFrom (position + 1) mode' found' rest
    | ⟨found', .error t⟩ => ⟨found'.reverse, position, some t⟩

/-- The tokens of a text. -/
def scan (text : List Char) : Scan :=
  scanFrom 0 .between [] text

end ErrorDocs.Json.Commented

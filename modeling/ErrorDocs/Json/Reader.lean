import ErrorDocs.Json.Basic
import ErrorDocs.Json.Token
import ErrorDocs.Number.Numeral

/-!
# Reading JSON

A text is read in two passes, each by a machine: the first takes one character at a time and
finds the tokens, the second takes one token at a time and builds the value, holding the
containers that are still open on a stack. A text that is not JSON has no value.

* `tokens?` finds the tokens of a text.
* `build?` is the value that tokens write.
* `parse?` is the value of a text.
-/

namespace ErrorDocs.Json

/-! ## Characters to tokens -/

/-- What the character machine is in the middle of. The texts so far are kept last first. -/
inductive LexMode where
  /-- Between two tokens. -/
  | between
  /-- In a number or a keyword. -/
  | atom (text : List Char)
  /-- In a quoted text. -/
  | quoted (text : List Char)
  /-- After a backslash in a quoted text. -/
  | escape (text : List Char)
  /-- In the digits of a numeric escape, of which `missing` are to come; `high` is the first
  unit of a pair, if this is its second. -/
  | code (text : List Char) (high : Option Nat) (missing : Nat) (value : Nat)
  /-- After the first unit of a pair, where a backslash has to come. -/
  | pair (text : List Char) (high : Nat)
  /-- After that backslash, where a `u` has to come. -/
  | pairEscape (text : List Char) (high : Nat)
deriving DecidableEq, Repr

/-- The blanks between tokens. -/
def isSpace (c : Char) : Bool :=
  c == ' ' || c == '\t' || c == '\n' || c == '\r'

/-- The token that a number or a keyword makes. -/
def atomToken? (text : List Char) : Option Token :=
  if text = ['t', 'r', 'u', 'e'] then some (.boolean true)
  else if text = ['f', 'a', 'l', 's', 'e'] then some (.boolean false)
  else if text = ['n', 'u', 'l', 'l'] then some .null
  else
    match (Numeral.parse? text).bind Numeral.value? with
    | some n => some (.number text (some n))
    | none => none

/-- Takes a character between two tokens. -/
def lexBetween (found : List Token) (c : Char) : Option (LexMode × List Token) :=
  if isSpace c then some (.between, found)
  else if c = '"' then some (.quoted [], found)
  else
    match punctuation? c with
    | some t => some (.between, t :: found)
    | none => some (.atom [c], found)

/-- Ends a numeric escape with the given value. -/
def lexCode (text : List Char) (high : Option Nat) (value : Nat) : Option LexMode :=
  match high with
  | some h => if isLowSurrogate value then some (.quoted (ofSurrogates h value :: text)) else none
  | none =>
    if isHighSurrogate value then some (.pair text value)
    else if isLowSurrogate value then none
    else some (.quoted (Char.ofNat value :: text))

/-- Takes one character. -/
def lexStep (mode : LexMode) (found : List Token) (c : Char) : Option (LexMode × List Token) :=
  match mode with
  | .between => lexBetween found c
  | .atom text =>
    if isSpace c || c == '"' || (punctuation? c).isSome then
      (atomToken? text.reverse).bind fun t => lexBetween (t :: found) c
    else some (.atom (c :: text), found)
  | .quoted text =>
    if c = '"' then some (.between, .string text.reverse :: found)
    else if c = '\\' then some (.escape text, found)
    else if c.toNat < 0x20 then none
    else some (.quoted (c :: text), found)
  | .escape text =>
    if c = 'u' then some (.code text none 4 0, found)
    else (escaped? c).map fun d => (.quoted (d :: text), found)
  | .code text high missing value =>
    match Number.hexValue? c with
    | none => none
    | some d =>
      let value' := value * 16 + d
      if missing ≤ 1 then (lexCode text high value').map (·, found)
      else some (.code text high (missing - 1) value', found)
  | .pair text high => if c = '\\' then some (.pairEscape text high, found) else none
  | .pairEscape text high => if c = 'u' then some (.code text (some high) 4 0, found) else none

/-- The characters that are left, taken one after the other. -/
def lexFrom (mode : LexMode) (found : List Token) : List Char → Option (List Token)
  | [] =>
    match mode with
    | .between => some found.reverse
    | .atom text => (atomToken? text.reverse).map fun t => (t :: found).reverse
    | _ => none
  | c :: rest =>
    match lexStep mode found c with
    | none => none
    | some (mode', found') => lexFrom mode' found' rest

/-- The tokens of a text. -/
def tokens? (s : List Char) : Option (List Token) :=
  lexFrom .between [] s

/-! ## Tokens to a value -/

/-- A container that is still open: an array with its items so far, last first, or an object with
its members so far and perhaps the name of the next one. -/
inductive Frame where
  | items (done : List Json)
  | members (done : List (String × Json))
  | member (done : List (String × Json)) (name : String)

/-- What may come next. -/
inductive Phase where
  /-- A value. -/
  | value
  /-- A value or the end of the array just opened. -/
  | firstItem
  /-- The name of a member or the end of the object just opened. -/
  | firstName
  /-- The name of a member. -/
  | name
  /-- The colon after a name. -/
  | colon
  /-- What follows a value in a container. -/
  | after
  /-- Nothing: the value is complete. -/
  | finished (v : Json)

/-- Hands a complete value to the innermost open container. -/
def deliver (v : Json) : List Frame → List Frame × Phase
  | [] => ([], .finished v)
  | .items done :: stack => (.items (v :: done) :: stack, .after)
  | .member done name :: stack => (.members (insertMember name v done) :: stack, .after)
  | .members done :: stack => (.members done :: stack, .after)

/-- The value of a token that is one by itself. -/
def scalar? : Token → Option Json
  | .string s => some (.string (String.ofList s))
  | .number _ (some n) => some (.number n)
  | .boolean b => some (.bool b)
  | .null => some .null
  | _ => none

/-- Takes a token where a value may start. -/
def beginValue (stack : List Frame) (t : Token) : Option (List Frame × Phase) :=
  match t with
  | .openBracket => some (.items [] :: stack, .firstItem)
  | .openBrace => some (.members [] :: stack, .firstName)
  | t => (scalar? t).map (deliver · stack)

/-- Takes a token where the name of a member has to come. -/
def beginMember (stack : List Frame) (t : Token) : Option (List Frame × Phase) :=
  match stack, t with
  | .members done :: stack, .string s => some (.member done (String.ofList s) :: stack, .colon)
  | _, _ => none

/-- Ends the innermost container. -/
def endContainer (stack : List Frame) (t : Token) : Option (List Frame × Phase) :=
  match stack, t with
  | .items done :: stack, .closeBracket => some (deliver (.array done.reverse) stack)
  | .members done :: stack, .closeBrace => some (deliver (.object done) stack)
  | _, _ => none

/-- Takes one token. -/
def buildStep (stack : List Frame) (phase : Phase) (t : Token) : Option (List Frame × Phase) :=
  match phase with
  | .value => beginValue stack t
  | .firstItem => if t = .closeBracket then endContainer stack t else beginValue stack t
  | .firstName => if t = .closeBrace then endContainer stack t else beginMember stack t
  | .name => beginMember stack t
  | .colon => if t = .colon then some (stack, .value) else none
  | .after =>
    if t = .comma then
      match stack with
      | .items _ :: _ => some (stack, .value)
      | .members _ :: _ => some (stack, .name)
      | _ => none
    else endContainer stack t
  | .finished _ => none

/-- The tokens that are left, taken one after the other. -/
def buildFrom (stack : List Frame) (phase : Phase) : List Token → Option Json
  | [] =>
    match phase with
    | .finished v => some v
    | _ => none
  | t :: rest =>
    match buildStep stack phase t with
    | none => none
    | some (stack', phase') => buildFrom stack' phase' rest

/-- The value that tokens write. -/
def build? (ts : List Token) : Option Json :=
  buildFrom [] .value ts

/-- The value of a JSON text. -/
def parse? (s : List Char) : Option Json :=
  (tokens? s).bind build?

end ErrorDocs.Json

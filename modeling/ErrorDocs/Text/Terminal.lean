import ErrorDocs.Text.Lines

/-!
# Text for a terminal

A terminal does not show every character: it acts on control characters and on the control
sequences that an escape character starts. Text from outside is made harmless before it is shown,
in one of two ways.

* `Terminal.strip` leaves out control characters and control sequences.
* `Terminal.escape` writes the control characters that a terminal acts on as visible text.
* `Terminal.lines` gives the lines that a text is shown as.
-/

namespace ErrorDocs.Terminal

/-- The character that starts a control sequence. -/
def escapeChar : Char := '\x1b'

/-- Whether the code of a character lies between two numbers. -/
def isBetween (lo hi : Nat) (c : Char) : Bool :=
  lo ≤ c.toNat && c.toNat ≤ hi

/-- Characters of one byte. -/
def isAscii (c : Char) : Bool :=
  c.toNat < 0x80

/-- The control characters that move on in the text: they are shown, even within a sequence. -/
def isSpacing (c : Char) : Bool :=
  c == '\t' || c == '\n' || c == '\x0c' || c == '\r'

/-- The characters that plain text shows. -/
def isPlain (c : Char) : Bool :=
  !isAscii c || isBetween 0x20 0x7E c || isSpacing c

/-! ## Leaving out control sequences -/

/-- What the machine is in the middle of. -/
inductive Mode where
  /-- Plain text. -/
  | text
  /-- After the escape character. -/
  | escape
  /-- In a sequence of the escape character, marks and one last character. -/
  | marks
  /-- In a sequence with parameters. -/
  | parameters
  /-- In a command for the operating system, which the bell ends. -/
  | command
  /-- At the start of a device control string. -/
  | device
  /-- In the parameters of a device control string. -/
  | deviceParameters
  /-- In the marks of a device control string. -/
  | deviceMarks
  /-- In a string that the string terminator ends. -/
  | string
deriving DecidableEq, Repr

/-- Characters with the byte of the string terminator in their encoding. -/
def hasTerminator (c : Char) : Bool :=
  (String.utf8EncodeChar c).contains 0x9C

/-- The mode after a character that the escape character precedes. -/
def afterEscape (c : Char) : Mode :=
  if isBetween 0x20 0x2F c then .marks
  else if c = '[' then .parameters
  else if c = ']' then .command
  else if c = 'P' then .device
  else if c = 'X' ∨ c = '^' ∨ c = '_' then .string
  else if isBetween 0x30 0x7E c then .text
  else .escape

/-- The mode after a character that is not shown. -/
def Mode.next (mode : Mode) (c : Char) : Mode :=
  if c = escapeChar then .escape
  else if c = '\x18' ∨ c = '\x1a' then .text
  else
    match mode with
    | .text => .text
    | .escape => afterEscape c
    | .marks => if isBetween 0x30 0x7E c then .text else .marks
    | .parameters => if isBetween 0x40 0x7E c then .text else .parameters
    | .command => if c = '\x07' then .text else .command
    | .device =>
      if isBetween 0x20 0x2F c then .deviceMarks
      else if isBetween 0x30 0x3F c then .deviceParameters
      else if isBetween 0x40 0x7E c then .string else .device
    | .deviceParameters =>
      if isBetween 0x20 0x2F c then .deviceMarks
      else if isBetween 0x3C 0x7E c then .string else .deviceParameters
    | .deviceMarks => if isBetween 0x30 0x7E c then .string else .deviceMarks
    | .string => if hasTerminator c then .text else .string

/-- The characters that are shown in a mode. -/
def Mode.shows (mode : Mode) (c : Char) : Bool :=
  match mode with
  | .text => isPlain c
  | .escape | .marks | .parameters => isSpacing c
  | _ => false

/-- The state of the machine. A spacing character within a sequence lets the text show again; the
sequence goes on at the next control character. -/
structure Progress where
  mode : Mode := .text
  showing : Bool := false
deriving DecidableEq, Repr

/-- Takes one character; the second result tells whether it is shown. -/
def Progress.step (p : Progress) (c : Char) : Progress × Bool :=
  if (p.showing && isPlain c) || p.mode.shows c then
    (⟨if isAscii c then p.mode else .text, true⟩, true)
  else (⟨p.mode.next c, false⟩, false)

/-- The characters that are shown of what is left of a text. -/
def stripFrom (p : Progress) : List Char → List Char
  | [] => []
  | c :: rest =>
    match p.step c with
    | (p', true) => c :: stripFrom p' rest
    | (p', false) => stripFrom p' rest

/-- A text without control characters and control sequences. -/
def strip (s : List Char) : List Char :=
  stripFrom {} s

/-! ## Making control characters visible -/

/-- The two hexadecimal digits of a number below 256. -/
def hexPair (n : Nat) : List Char :=
  [Nat.digitChar (n / 16), Nat.digitChar (n % 16)]

/-- The control characters of one byte that a terminal acts on. -/
def isActive (c : Char) : Bool :=
  c == escapeChar || c == '\x07' || c == '\x08' || c == '\x0c' || c == '\x7f'

/-- A character, written visibly if a terminal acts on it. -/
def escapeOne (c : Char) : List Char :=
  if isActive c then '\\' :: 'x' :: hexPair c.toNat
  else if isBetween 0x80 0x9F c then
    '\\' :: 'u' :: '\x7b' :: (hexPair c.toNat ++ ['\x7d'])
  else [c]

/-- A text with the control characters that a terminal acts on written visibly. -/
def escape (s : List Char) : List Char :=
  s.flatMap escapeOne

/-! ## Lines -/

/-- The lines that a text is shown as. A carriage return before the end of a line is part of
that end. -/
def lines (s : List Char) : List String :=
  (Text.splitLines s).map fun line => String.ofList (Text.dropReturn line)

end ErrorDocs.Terminal

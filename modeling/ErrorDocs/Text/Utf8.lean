/-!
# UTF-8

A text is written in UTF-8 character by character. Reading is by a machine that takes one byte at
a time and never fails: each longest start of a well-formed character that is cut short, and each
byte that can start none, is read as the replacement character U+FFFD.

* `encode` writes a text, `decodeLossy` reads any bytes.
* `decode?` reads the bytes that hold a text, which are those that lossy reading keeps.
-/

namespace ErrorDocs.Utf8

/-- The bytes of a text. -/
def encode (s : List Char) : List UInt8 :=
  s.flatMap String.utf8EncodeChar

/-- The number of bytes a text takes. -/
def size (s : List Char) : Nat :=
  s.foldl (fun n c => n + c.utf8Size) 0

/-- The character read for bytes that are not well-formed. -/
def replacement : Char := '\ufffd'

/-- How far the character being read has come: nothing of it, or all but `missing` of its bytes,
of which the next has to lie between `lo` and `hi`; `value` is the number its bits make so far. -/
inductive Progress where
  | idle
  | within (lo hi : UInt8) (missing : Nat) (value : Nat)
deriving DecidableEq, Repr

/-- The state of the reading machine: the character being read, and the text so far, last first. -/
structure Reading where
  progress : Progress
  text : List Char

/-- Reads a byte at which a character may start. -/
def start (text : List Char) (b : UInt8) : Reading :=
  if b < 0x80 then ⟨.idle, Char.ofNat b.toNat :: text⟩
  else if b < 0xC2 then ⟨.idle, replacement :: text⟩
  else if b < 0xE0 then ⟨.within 0x80 0xBF 1 (b.toNat - 0xC0), text⟩
  else if b = 0xE0 then ⟨.within 0xA0 0xBF 2 0, text⟩
  else if b = 0xED then ⟨.within 0x80 0x9F 2 0xD, text⟩
  else if b < 0xF0 then ⟨.within 0x80 0xBF 2 (b.toNat - 0xE0), text⟩
  else if b = 0xF0 then ⟨.within 0x90 0xBF 3 0, text⟩
  else if b < 0xF4 then ⟨.within 0x80 0xBF 3 (b.toNat - 0xF0), text⟩
  else if b = 0xF4 then ⟨.within 0x80 0x8F 3 4, text⟩
  else ⟨.idle, replacement :: text⟩

/-- Reads one byte. A byte that does not continue the character being read ends it as a
replacement and may itself start a character. -/
def step (r : Reading) (b : UInt8) : Reading :=
  match r.progress with
  | .idle => start r.text b
  | .within lo hi missing value =>
    if lo ≤ b ∧ b ≤ hi then
      let value' := value * 64 + (b.toNat - 0x80)
      if missing ≤ 1 then ⟨.idle, Char.ofNat value' :: r.text⟩
      else ⟨.within 0x80 0xBF (missing - 1) value', r.text⟩
    else start (replacement :: r.text) b

/-- The text of a machine that has read all its bytes. -/
def finish (r : Reading) : List Char :=
  match r.progress with
  | .idle => r.text.reverse
  | .within .. => (replacement :: r.text).reverse

/-- The text of any bytes, with a replacement character for each part that is not well-formed. -/
def decodeLossy (bytes : List UInt8) : List Char :=
  finish (bytes.foldl step ⟨.idle, []⟩)

/-- The text that the bytes hold, if they are well-formed: reading them then loses nothing. -/
def decode? (bytes : List UInt8) : Option (List Char) :=
  let s := decodeLossy bytes
  if encode s = bytes then some s else none

end ErrorDocs.Utf8

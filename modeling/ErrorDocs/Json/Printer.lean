import ErrorDocs.Json.Basic

/-!
# Writing JSON

A value is written in one of two layouts: with nothing between the tokens, or with each item on a
line of its own and two spaces for each level. In a text only the quote, the backslash and the
control characters below U+0020 are escaped.
-/

namespace ErrorDocs.Json

/-- The opening brace of an object. -/
def leftBrace : Char := '\x7b'

/-- The closing brace of an object. -/
def rightBrace : Char := '\x7d'

/-- The hexadecimal digit of a number below 16. -/
def hexDigit (n : Nat) : Char :=
  Nat.digitChar n

/-- A character as it is written inside quotes. -/
def escapeChar (c : Char) : List Char :=
  if c = '"' then ['\\', '"']
  else if c = '\\' then ['\\', '\\']
  else if c = '\x08' then ['\\', 'b']
  else if c = '\t' then ['\\', 't']
  else if c = '\n' then ['\\', 'n']
  else if c = '\x0c' then ['\\', 'f']
  else if c = '\r' then ['\\', 'r']
  else if c.toNat < 0x20 then
    ['\\', 'u', '0', '0', hexDigit (c.toNat / 16), hexDigit (c.toNat % 16)]
  else [c]

/-- A text in quotes. -/
def quote (s : List Char) : List Char :=
  '"' :: (s.flatMap escapeChar ++ ['"'])

/-- The text of a value that has no parts. -/
def scalarText : Json → List Char
  | .bool true => ['t', 'r', 'u', 'e']
  | .bool false => ['f', 'a', 'l', 's', 'e']
  | .number n => n.render
  | .string s => quote s.toList
  | _ => ['n', 'u', 'l', 'l']

mutual

/-- A value with nothing between its tokens. -/
def compact : Json → List Char
  | .array items => '[' :: (List.intercalate [','] (compactItems items) ++ [']'])
  | .object members =>
    leftBrace :: (List.intercalate [','] (compactMembers members) ++ [rightBrace])
  | .null => scalarText .null
  | .bool b => scalarText (.bool b)
  | .number n => scalarText (.number n)
  | .string s => scalarText (.string s)

/-- The items of an array. -/
def compactItems : List Json → List (List Char)
  | [] => []
  | v :: rest => compact v :: compactItems rest

/-- The members of an object. -/
def compactMembers : List (String × Json) → List (List Char)
  | [] => []
  | (name, v) :: rest => (quote name.toList ++ ':' :: compact v) :: compactMembers rest

end

/-- The start of a line at a given level. -/
def lineStart (level : Nat) : List Char :=
  '\n' :: List.replicate (2 * level) ' '

/-- The parts of a container on lines of their own, one level in, between its delimiters. -/
def enclose (level : Nat) (left right : Char) (parts : List (List Char)) : List Char :=
  match parts with
  | [] => [left, right]
  | _ =>
    let lines := parts.map (lineStart (level + 1) ++ ·)
    left :: (List.intercalate [','] lines ++ lineStart level ++ [right])

mutual

/-- A value that stands at a given level, each part on a line of its own. -/
def prettyAt (level : Nat) : Json → List Char
  | .array items => enclose level '[' ']' (prettyItems (level + 1) items)
  | .object members => enclose level leftBrace rightBrace (prettyMembers (level + 1) members)
  | .null => scalarText .null
  | .bool b => scalarText (.bool b)
  | .number n => scalarText (.number n)
  | .string s => scalarText (.string s)

/-- The items of an array at a given level. -/
def prettyItems (level : Nat) : List Json → List (List Char)
  | [] => []
  | v :: rest => prettyAt level v :: prettyItems level rest

/-- The members of an object at a given level. -/
def prettyMembers (level : Nat) : List (String × Json) → List (List Char)
  | [] => []
  | (name, v) :: rest =>
    (quote name.toList ++ ':' :: ' ' :: prettyAt level v) :: prettyMembers level rest

end

/-- A value with each part on a line of its own. -/
def pretty (v : Json) : List Char :=
  prettyAt 0 v

end ErrorDocs.Json

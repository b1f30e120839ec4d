import ErrorDocs.Text.Blank
import ErrorDocs.Text.Lines

/-!
# Tags

The content of a comment is a description followed by tags. A tag line starts, after blanks, with
`@` and an identifier; it opens a tag, and the lines up to the next tag line belong to the tag's
value. Lines before the first tag line are the description.

* `isTagLine` and `splitTagLine?` recognise a tag line and cut it into name and value.
* `TagReader` takes the lines one at a time; `parseLines` takes them all.
-/

namespace ErrorDocs

/-- A named note in a comment, with the text that belongs to it. -/
structure Tag where
  name : String
  raw : String
deriving DecidableEq, Repr, Inhabited

/-- The description and the tags of a comment. -/
structure ParsedComment where
  description : String
  tags : List Tag
deriving DecidableEq, Repr, Inhabited

namespace Tag

/-- The character that introduces a tag. -/
def marker : Char := '@'

/-- The characters of a tag name: ASCII letters and digits, `_` and `-`. -/
def isIdentifier (c : Char) : Bool :=
  c.isAlphanum || c == '_' || c == '-'

/-- Lines that open a tag. -/
def isTagLine (line : List Char) : Bool :=
  match Text.trimStart line with
  | c :: d :: _ => c == marker && isIdentifier d
  | _ => false

/-- The name of the tag that a line opens, and the value on that line. -/
def splitTagLine? (line : List Char) : Option (List Char × List Char) :=
  match Text.trimStart line with
  | [] => none
  | c :: rest =>
    if c = marker then
      match rest.takeWhile isIdentifier with
      | [] => none
      | name => some (name, Text.trimStart (rest.dropWhile isIdentifier))
    else none

/-- A value without a type annotation in braces at its start and the blanks around it. Braces
with nothing in them are no annotation. -/
def stripAnnotation (value : List Char) : List Char :=
  match Text.trimStart value with
  | '\x7b' :: body =>
    match body.takeWhile (· != '\x7d'), body.dropWhile (· != '\x7d') with
    | _ :: _, _ :: rest => Text.trimStart rest
    | _, _ => value
  | _ => value

end Tag

/-- A tag whose lines are still coming: its name, and its lines so far, last first. -/
structure OpenTag where
  name : List Char
  lines : List (List Char)
deriving DecidableEq, Repr

/-- The tag that an open tag makes when no more lines come. -/
def OpenTag.close (t : OpenTag) : Tag where
  name := String.ofList t.name
  raw := String.ofList (Tag.stripAnnotation (Text.trimEnd (Text.joinLines t.lines.reverse)))

/-- The part of a comment that a line falls into. -/
inductive TagReader.Phase where
  | description
  | tags
deriving DecidableEq, Repr

/-- The state of reading a comment line by line. The lists are kept last first. -/
structure TagReader where
  phase : TagReader.Phase := .description
  description : List (List Char) := []
  tags : List Tag := []
  current : Option OpenTag := none
deriving DecidableEq, Repr

namespace TagReader

/-- The state before the first line. -/
def new : TagReader := {}

/-- Closes the open tag, if there is one. -/
def closeCurrent (r : TagReader) : TagReader :=
  match r.current with
  | none => r
  | some t => { r with tags := t.close :: r.tags, current := none }

/-- Takes the next line. -/
def feed (r : TagReader) (line : List Char) : TagReader :=
  if Tag.isTagLine line then
    let r := { r.closeCurrent with phase := .tags }
    match Tag.splitTagLine? line with
    | some (name, value) => { r with current := some ⟨name, [value]⟩ }
    | none => { r with description := line :: r.description, phase := .description }
  else
    match r.phase, r.current with
    | .tags, some t => { r with current := some { t with lines := line :: t.lines } }
    | _, _ => { r with description := line :: r.description }

/-- A description line without the spaces and tabs at its end. -/
def descriptionLine (line : List Char) : List Char :=
  Text.dropEndWhile (fun c => c == ' ' || c == '\t') line

/-- The comment that has been read when no more lines come. -/
def finish (r : TagReader) : ParsedComment where
  description :=
    String.ofList (Text.trim (Text.joinLines (r.description.reverse.map descriptionLine)))
  tags := r.closeCurrent.tags.reverse

end TagReader

/-- The description and the tags of a comment with the given content lines. -/
def parseLines (lines : List (List Char)) : ParsedComment :=
  (lines.foldl TagReader.feed TagReader.new).finish

end ErrorDocs

import ErrorDocs.Comment.Block
import ErrorDocs.Text.Blank
import ErrorDocs.Text.Lines

/-!
# The content of a comment

The content of a comment is what is left of its lines when the decoration is gone: the
delimiters, the indentation, and the star that continues a comment on the next line. Empty lines
are kept.
-/

namespace ErrorDocs.Comment

/-- The star at the start of a line of a comment. -/
def lineMarker : Char := '*'

/-- A line of a comment without its indentation, its star and one blank after the star. -/
def contentLine (line : List Char) : List Char :=
  match Text.trimStart (Text.dropReturn line) with
  | [] => []
  | c :: rest => if c = lineMarker then Text.dropBlank rest else c :: rest

/-- What stands between the delimiters, without one blank after the opening and all blanks before
the closing. A text that lacks a delimiter keeps what is there. -/
def inside (raw : List Char) : List Char :=
  let inner := Text.dropBlank ((Text.dropPrefix? opening raw).getD raw)
  match Text.dropSuffix? closing (Text.trimEnd inner) with
  | some body => Text.trimEnd body
  | none => inner

/-- The content lines of a comment. -/
def content (raw : List Char) : List (List Char) :=
  (Text.splitLines (inside raw)).map contentLine

end ErrorDocs.Comment

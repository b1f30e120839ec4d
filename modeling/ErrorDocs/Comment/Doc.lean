import ErrorDocs.Comment.Content
import ErrorDocs.Comment.LineIndex
import ErrorDocs.Comment.Tag
import ErrorDocs.Path

/-!
# Documented blocks

The documentation of a file is the list of its comments, each with the place it stands at, its
own text, and what it says.
-/

namespace ErrorDocs

/-- A documentation comment of a file. -/
structure DocBlock where
  /-- The file the comment stands in. -/
  filePath : Path
  /-- The line its opening delimiter stands on, counted from 1. -/
  startLine : Nat
  /-- Its text, delimiters included. -/
  raw : String
  /-- The text before the first tag. -/
  description : String
  /-- Its tags, in order. -/
  tags : List Tag
deriving DecidableEq, Repr, Inhabited

/-- The first tag of a block with the given name. -/
def DocBlock.findTag? (b : DocBlock) (name : String) : Option Tag :=
  b.tags.find? (·.name == name)

/-- The documentation of a file with the given text. -/
def extractDocs (path : Path) (text : List Char) : List DocBlock :=
  let index := LineIndex.ofText text
  (Comment.blocks text).map fun b =>
    let parsed := parseLines (Comment.content b.raw)
    { filePath := path
      startLine := index.lineOf b.offset
      raw := String.ofList b.raw
      description := parsed.description
      tags := parsed.tags }

end ErrorDocs

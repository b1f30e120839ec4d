import ErrorDocs.Scan.Result
import ErrorDocs.Text.Blank

/-!
# The documentation scheme

The scheme lists the errors that a project documents: one entry for each block with an `error`
tag. What the project does not say about itself is filled in.

* `ErrorScheme.ofScan` makes the scheme of a scan.
* `errorName` is the name of the error that a block documents.
-/

namespace ErrorDocs

/-- What a project says about itself. -/
structure ProjectMeta where
  projectName : String := ""
  description : String := ""
  version : String := ""
deriving DecidableEq, Repr, Inhabited

/-- A tag of a documented error. -/
structure SchemeTag where
  name : String
  description : String
deriving DecidableEq, Repr, Inhabited

/-- A documented error. -/
structure SchemeError where
  name : String
  description : String
  tags : List SchemeTag
deriving DecidableEq, Repr, Inhabited

/-- The documentation of a project's errors. -/
structure ErrorScheme where
  name : String
  description : String
  version : String
  errors : List SchemeError
deriving DecidableEq, Repr, Inhabited

/-- The name of the tag that makes a block the documentation of an error. -/
def errorTag : String := "error"

/-- A text cut at its last dot, if it has one: what stands before the dot and what follows. -/
def cutAtLastDot? (s : List Char) : Option (List Char × List Char) :=
  match s.reverse.dropWhile (· != '.') with
  | [] => none
  | _ :: before => some (before.reverse, (s.reverse.takeWhile (· != '.')).reverse)

/-- A file name without its extension. The dot may come first, but something has to follow it. -/
def stem (fileName : List Char) : List Char :=
  match cutAtLastDot? fileName with
  | some (before, _ :: _) => before
  | _ => fileName

/-- The file name of a path without its extension, as text. -/
def fileStem (path : Path) : List Char :=
  stem (Utf8.decodeLossy (path.fileName?.getD []))

/-- The name of the error a block documents: the first word of its `error` tag, or else the stem
of the file it stands in. -/
def errorName (b : DocBlock) : String :=
  match (b.findTag? errorTag).bind fun t => Text.firstWord? t.raw.toList with
  | some word => String.ofList word
  | none => String.ofList (fileStem b.filePath)

/-- A tag in the scheme. -/
def SchemeTag.ofTag (t : Tag) : SchemeTag where
  name := t.name
  description := String.ofList (Text.trim t.raw.toList)

/-- Blocks that document an error. -/
def DocBlock.isError (b : DocBlock) : Bool :=
  (b.findTag? errorTag).isSome

/-- The entry of a block that documents an error. -/
def SchemeError.ofBlock? (b : DocBlock) : Option SchemeError :=
  if b.isError then
    some { name := errorName b, description := b.description, tags := b.tags.map SchemeTag.ofTag }
  else none

namespace ErrorScheme

/-- The name of a scheme whose project has none. -/
def defaultName : String := "Generated Errogger Scheme"

/-- The version of a scheme whose project has none. -/
def defaultVersion : String := "1.0.0"

/-- The description of a scheme whose project has none. -/
def defaultDescription (scan : ScanResult) : String :=
  "Errogger documentation generated from scanning " ++ Number.natText scan.scannedFiles ++
    " file(s) with " ++ Number.natText scan.blocks.length ++ " error block(s)."

/-- What a project says in one field, or else the value given. -/
def fieldOr (project : Option ProjectMeta) (field : ProjectMeta → String) (other : String) :
    String :=
  match project.map field with
  | some "" => other
  | some s => s
  | none => other

/-- The scheme of a scan. -/
def ofScan (scan : ScanResult) (project : Option ProjectMeta) : ErrorScheme where
  name := fieldOr project (·.projectName) defaultName
  description := fieldOr project (·.description) (defaultDescription scan)
  version := fieldOr project (·.version) defaultVersion
  errors := scan.blocks.filterMap SchemeError.ofBlock?

end ErrorScheme

end ErrorDocs

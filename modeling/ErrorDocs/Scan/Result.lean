import ErrorDocs.Comment.Doc
import ErrorDocs.Json.Printer
import ErrorDocs.Json.Record

/-!
# The result of a scan

What a scan of a directory finds: the documented blocks, and how many files were read and how many
were passed over. A result can be written as JSON if all its paths are UTF-8.
-/

namespace ErrorDocs

/-- The outcome of scanning a directory tree. -/
structure ScanResult where
  /-- The directory the scan started from. -/
  rootDir : Path
  /-- The blocks, by file in the order of the walk, then by place in the file. -/
  blocks : List DocBlock
  /-- The number of files that were read. -/
  scannedFiles : Nat
  /-- The number of files that were passed over. -/
  skippedFiles : Nat
deriving DecidableEq, Repr, Inhabited

namespace Tag

/-- The fields of a tag, in order. -/
def fieldNames : List String := ["name", "raw"]

/-- A tag as JSON. -/
def toJson (t : Tag) : Json :=
  .object [("name", .string t.name), ("raw", .string t.raw)]

/-- Reads a tag. -/
def ofJson? (v : Json) : Option Tag :=
  match v.fields? fieldNames with
  | some [name, raw] =>
    match name.asString?, raw.asString? with
    | some name, some raw => some { name, raw }
    | _, _ => none
  | _ => none

end Tag

namespace DocBlock

/-- The fields of a block, in order. -/
def fieldNames : List String := ["filePath", "startLine", "raw", "description", "tags"]

/-- A block as JSON, if its path is UTF-8. -/
def toJson? (b : DocBlock) : Option Json :=
  b.filePath.toString?.map fun path =>
    .object
      [("filePath", .string path), ("startLine", .ofNat b.startLine), ("raw", .string b.raw),
        ("description", .string b.description), ("tags", .array (b.tags.map Tag.toJson))]

/-- Reads a block. -/
def ofJson? (v : Json) : Option DocBlock :=
  match v.fields? fieldNames with
  | some [path, line, raw, description, tags] =>
    match path.asString?, line.asNat?, raw.asString?, description.asString?,
      tags.listOf? Tag.ofJson? with
    | some path, some startLine, some raw, some description, some tags =>
      some { filePath := .ofString path, startLine, raw, description, tags }
    | _, _, _, _, _ => none
  | _ => none

end DocBlock

namespace ScanResult

/-- The fields of a result, in order. -/
def fieldNames : List String := ["rootDir", "blocks", "scannedFiles", "skippedFiles"]

/-- A result as JSON, if its paths are UTF-8. -/
def toJson? (r : ScanResult) : Option Json :=
  match r.rootDir.toString?, r.blocks.mapM DocBlock.toJson? with
  | some root, some blocks =>
    some (.object
      [("rootDir", .string root), ("blocks", .array blocks),
        ("scannedFiles", .ofNat r.scannedFiles), ("skippedFiles", .ofNat r.skippedFiles)])
  | _, _ => none

/-- Reads a result. -/
def ofJson? (v : Json) : Option ScanResult :=
  match v.fields? fieldNames with
  | some [root, blocks, scanned, skipped] =>
    match root.asString?, blocks.listOf? DocBlock.ofJson?, scanned.asNat?, skipped.asNat? with
    | some root, some blocks, some scannedFiles, some skippedFiles =>
      some { rootDir := .ofString root, blocks, scannedFiles, skippedFiles }
    | _, _, _, _ => none
  | _ => none

/-- What is said of a result that cannot be written. -/
def unwritable : String := "path contains invalid UTF-8 characters"

/-- A result as text, if its paths are UTF-8. -/
def render? (r : ScanResult) : Option (List Char) :=
  r.toJson?.map Json.pretty

end ScanResult

end ErrorDocs

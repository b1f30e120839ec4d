import ErrorDocs.Path
import ErrorDocs.Text.Blank
import ErrorDocs.Text.Lowercase

/-!
# What is scanned

A filter says which directories are not entered and which files are not read: by the name of the
directory, by the extension of the file, and by its size. Extensions are compared in lower case
and with their dot.

* `isEligible` judges a path by a whitelist as it is given.
* `PathFilter` is prepared once for a scan, from the options together with the built-in names.
-/

namespace ErrorDocs

namespace Filter

/-- The names of the directories that are never entered. -/
def defaultIgnoreDirs : List String :=
  ["node_modules", ".git", "dist", "build", "out", ".next", ".turbo", ".cache", "coverage"]

/-- The size in bytes above which files are passed over, unless another is given. -/
def defaultMaxFileSize : Nat := 2 * 1024 * 1024

/-- An extension without blanks around it, in lower case, with a dot in front. -/
def normalizeExtension (ext : List Char) : List Char :=
  match Text.lower (Text.trim ext) with
  | [] => ['.']
  | c :: rest => if c = '.' then c :: rest else '.' :: c :: rest

/-- The extension of a path in lower case, with a dot in front. -/
def extensionText? (path : Path) : Option (List Char) :=
  path.extension?.map fun ext => '.' :: Text.lower (Utf8.decodeLossy ext)

/-- Files that a whitelist of extensions admits. An empty whitelist admits all. -/
def isEligible (whitelist : List (List Char)) (path : Path) : Bool :=
  whitelist.isEmpty ||
    match extensionText? path with
    | none => false
    | some ext => whitelist.any fun w => normalizeExtension w == ext

/-- Names that are in a list of names to ignore. -/
def isIgnored (names : List String) (name : String) : Bool :=
  names.contains name

end Filter

/-- The filter of a scan. -/
structure PathFilter where
  ignoreDirs : List String
  whitelist : List (List Char)
  maxFileSize : Nat
deriving DecidableEq, Repr

namespace PathFilter

/-- The filter that the given options make together with the built-in names. -/
def new (ignoreDirs whitelist : List String) (maxFileSize : Nat) : PathFilter where
  ignoreDirs := Filter.defaultIgnoreDirs ++ ignoreDirs
  whitelist := whitelist.map fun w => Filter.normalizeExtension w.toList
  maxFileSize := maxFileSize

/-- Directories that are not entered. -/
def isIgnoredDir (f : PathFilter) (name : String) : Bool :=
  Filter.isIgnored f.ignoreDirs name

/-- Files whose extension is admitted. -/
def isEligibleFile (f : PathFilter) (path : Path) : Bool :=
  Filter.isEligible f.whitelist path

/-- Sizes that are too large. -/
def exceedsSizeCap (f : PathFilter) (size : Nat) : Bool :=
  f.maxFileSize < size

end PathFilter

end ErrorDocs

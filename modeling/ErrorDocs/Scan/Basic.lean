import ErrorDocs.FileSystem.Walk
import ErrorDocs.Log
import ErrorDocs.Scan.Result

/-!
# Scanning a directory tree

A scan walks a tree and reads the documentation of every file that the filter lets through. Only
a root that cannot be used makes a scan fail; a file that cannot be used is counted.

* `Scan.outcome` is what comes of one file.
* `Scan.scan` is the result of a scan, `Scan.log` what is said during it.
-/

namespace ErrorDocs

/-- The options of a scan. -/
structure ScanOptions where
  /-- The names of directories not to enter, besides the built-in ones. -/
  ignoreDirs : List String := []
  /-- The extensions of the files to read; none means all. -/
  whitelistExtensions : List String := []
  /-- The size in bytes above which files are passed over. -/
  maxFileSize : Nat := Filter.defaultMaxFileSize
  /-- Whether files are read side by side. -/
  parallel : Bool := false
deriving DecidableEq, Repr, Inhabited

/-- The filter that options make. -/
def ScanOptions.filter (o : ScanOptions) : PathFilter :=
  .new o.ignoreDirs o.whitelistExtensions o.maxFileSize

/-- Why a scan fails. -/
inductive ScanError where
  | rootNotFound (root : Path)
  | notADirectory (root : Path)
  | os (e : OsError)
deriving DecidableEq, Repr

namespace ScanError

/-- The text that states a cause. -/
def message : ScanError → String
  | .rootNotFound root => "Source directory \"" ++ root.display ++ "\" does not exist"
  | .notADirectory root => "Source path \"" ++ root.display ++ "\" is not a directory"
  | .os e => "I/O error: " ++ e.message

/-- The text that states a cause, and those that state what is behind it. -/
def messages (e : ScanError) : List String :=
  match e with
  | .os cause => [e.message, cause.message]
  | _ => [e.message]

end ScanError

namespace Scan

/-- What comes of a file. -/
inductive Outcome where
  | scanned (blocks : List DocBlock)
  | ineligible
  | tooLarge (size : Nat)
  | unreadable (e : OsError)
deriving DecidableEq, Repr

/-- The size of the file that an entry is. -/
def fileSize : Entry → Nat
  | .file contents _ => contents.length
  | _ => 0

/-- What comes of the file at a path. -/
def outcome (fs : FileSystem) (filter : PathFilter) (path : Path) : Outcome :=
  if !filter.isEligibleFile path then .ineligible
  else
    match fs.status path with
    | .error e => .unreadable e
    | .ok entry =>
      if filter.exceedsSizeCap (fileSize entry) then .tooLarge (fileSize entry)
      else
        match fs.contentsAt path with
        | .error e => .unreadable e
        | .ok contents => .scanned (extractDocs path (Utf8.decodeLossy contents))

/-- The line that tells what has come of a file. -/
def Outcome.line (path : Path) : Outcome → LogLine
  | .scanned blocks =>
    .debug ("Scanned " ++ path.display ++ " (" ++ Number.natText blocks.length ++ " block(s))")
  | .ineligible => .debug ("Skipped " ++ path.display ++ ": extension not whitelisted")
  | .tooLarge size =>
    .debug
      ("Skipped " ++ path.display ++ ": " ++ Number.natText size ++ " bytes exceeds size cap")
  | .unreadable e => .debug ("Skipped " ++ path.display ++ ": " ++ e.message)

/-- The blocks of a file, if it has been read. -/
def Outcome.blocks? : Outcome → Option (List DocBlock)
  | .scanned blocks => some blocks
  | _ => none

/-- Adds what has come of a file to a result. The blocks are kept last first. -/
def record (r : ScanResult) (o : Outcome) : ScanResult :=
  match o with
  | .scanned blocks =>
    { r with scannedFiles := r.scannedFiles + 1, blocks := blocks.reverse ++ r.blocks }
  | _ => { r with skippedFiles := r.skippedFiles + 1 }

/-- The result of a scan of a root with the given outcomes. -/
def total (root : Path) (outcomes : List Outcome) : ScanResult :=
  let r := outcomes.foldl record ⟨root, [], 0, 0⟩
  { r with blocks := r.blocks.reverse }

/-- Runs the tasks in the given order of their places. Each puts what comes of it in its own
place. -/
def runInOrder {α β : Type} (task : α → β) (inputs : Array α) (order : List Nat) :
    Array (Option β) :=
  order.foldl
    (fun places i =>
      match inputs[i]? with
      | some x => places.setIfInBounds i (some (task x))
      | none => places)
    (Array.replicate inputs.size none)

/-- What comes of files that are read side by side, one being done after the other in the given
order. -/
def outcomesInOrder (fs : FileSystem) (filter : PathFilter) (paths : List Path)
    (order : List Nat) : List Outcome :=
  (runInOrder (outcome fs filter) paths.toArray order).toList.filterMap id

/-- What comes of the files of a scan. -/
def outcomes (fs : FileSystem) (options : ScanOptions) (paths : List Path) : List Outcome :=
  if options.parallel then
    outcomesInOrder fs options.filter paths (List.range paths.length)
  else paths.map (outcome fs options.filter)

/-- The directory that a scan starts from has to be one. -/
def checkRoot (fs : FileSystem) (root : Path) : Except ScanError Unit :=
  match fs.status root with
  | .error .notFound => .error (.rootNotFound root)
  | .error e => .error (.os e)
  | .ok entry => if entry.isDirectory then .ok () else .error (.notADirectory root)

/-- The result of a scan. -/
def scan (fs : FileSystem) (options : ScanOptions) (root : Path) : Except ScanError ScanResult :=
  match checkRoot fs root with
  | .error e => .error e
  | .ok () =>
    .ok (total root (outcomes fs options (Visit.files (fs.walk options.filter root))))

/-! ## What is said during a scan -/

/-- The line that tells of a visit, files apart. -/
def visitLine? : Visit → Option LogLine
  | .file _ => none
  | .ignored path => some (.debug ("Skipping ignored directory: " ++ path.display))
  | .failed path e =>
    some (.debug
      ("Walk error: IO error for operation on " ++ path.display ++ ": " ++ e.message))

/-- The lines of the walk and of the files. When files are read side by side, the walk comes
first. -/
def visitLines (fs : FileSystem) (options : ScanOptions) (visits : List Visit) : List LogLine :=
  let fileLine (path : Path) := (outcome fs options.filter path).line path
  if options.parallel then
    visits.filterMap visitLine? ++ (Visit.files visits).map fileLine
  else
    visits.filterMap fun v =>
      match v with
      | .file path => some (fileLine path)
      | v => visitLine? v

/-- The lines of a scan that does not fail. -/
def log (fs : FileSystem) (options : ScanOptions) (root : Path) (r : ScanResult) :
    List LogLine :=
  let visits := fs.walk options.filter root
  LogLine.info ("Scanning directory: " ++ root.display) ::
    (visitLines fs options visits ++
      [.info
        ("Scanned " ++ Number.natText r.scannedFiles ++ " file(s), skipped " ++
          Number.natText r.skippedFiles ++ " file(s), found " ++ Number.natText r.blocks.length ++
          " block(s), " ++ Number.natText (Visit.failures visits) ++ " walk error(s)")])

end Scan

end ErrorDocs

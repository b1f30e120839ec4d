import ErrorDocs.CommandLine.Program
import ErrorDocs.FileSystem.Changes

/-!
# The command line program

The program runs on a file system that is a value. Here the parts of the real one that a command
can look at are read into such a value, and the changes that the command has made to it are
carried out.
-/

namespace ErrorDocs.Main

/-- The location of an absolute path. -/
def locationOf (path : String) : Location :=
  (Path.ofString path).parts.filter (!·.isEmpty)

/-- The absolute path of a location. -/
def pathOf (location : Location) : String :=
  "/" ++ (Path.ofParts location).display

/-- The file system with an entry at a location, and with the directories above it. -/
def graft (fs : FileSystem) (location : Location) (e : Entry) : FileSystem :=
  if (fs.root.get? location).isSome then fs
  else { fs with workingDirectory := [] }.plant (Path.ofParts location) e |> fun fs' =>
    { fs' with workingDirectory := fs.workingDirectory }

/-- The text of a link that leads nowhere. -/
def nowhere : List UInt8 :=
  (Path.ofString "/dev/null/nowhere").bytes

/-- What an action gives, or why it fails. -/
def attempt {α : Type} (action : IO α) : IO (Except IO.Error α) :=
  try
    return .ok (← action)
  catch e => return .error e

/-- The fault of what could not be opened, if so. -/
def faultOf {α : Type} : Except IO.Error α → Option OsError
  | .ok _ => none
  | .error (.permissionDenied ..) => some .permissionDenied
  | .error _ => some .inputOutput

/-- The file system with what a path leads to at a location: a file, or a directory without its
entries. A file that cannot be opened has its size and no more. -/
def graftFrom (fs : FileSystem) (location : Location) (path : String) : IO FileSystem := do
  let real ← IO.FS.realPath path
  let found ← real.metadata
  match found.type with
  | .dir =>
    let listed ← attempt real.readDir
    return graft fs location (.directory [] (faultOf listed))
  | .file =>
    let read ← attempt (IO.FS.readBinFile real)
    let contents :=
      match read with
      | .ok bytes => bytes.data.toList
      | .error _ => List.replicate found.byteSize.toNat 0
    return graft fs location (.file contents (faultOf read))
  | _ => return fs

/-- Reads a path part by part: directories without their entries, files, and links, each link
together with what it leads to. -/
def loadPath (fs : FileSystem) (path : Path) : IO FileSystem := do
  let cwd ← IO.currentDir
  let parts := path.parts
  let mut fs := fs
  for n in List.range' 1 parts.length do
    let text := (Path.ofParts (parts.take n)).display
    let place := cwd / text
    try
      let real ← attempt (IO.FS.realPath place)
      if (← place.symlinkMetadata).type matches .symlink then
        let dir := locationOf (← IO.FS.realPath (place.parent.getD cwd)).toString
        let name := (Path.ofString text).fileName?.getD []
        let target :=
          match real with
          | .ok real => (Path.ofString real.toString).bytes
          | .error _ => nowhere
        fs := graft fs (dir ++ [name]) (.link target)
      if let .ok real := real then
        fs ← graftFrom fs (locationOf real.toString) real.toString
    catch _ => pure ()
  return fs

/-- Reads all that is below a directory. Links below it are kept as links that lead nowhere. -/
partial def loadTree (fs : FileSystem) (path : String) : IO FileSystem := do
  let mut fs := fs
  let listed ← attempt (do (← IO.FS.realPath path).readDir)
  for entry in listed.toOption.getD #[] do
    -- what is wrong with one entry does not matter to those beside it
    try
      let child := entry.path.toString
      let location := locationOf child
      match (← entry.path.symlinkMetadata).type with
      | .symlink => fs := graft fs location (.link nowhere)
      | .dir =>
        if Filter.defaultIgnoreDirs.contains entry.fileName then
          fs := graft fs location (.directory [])
        else
          fs ← graftFrom fs location child
          fs ← loadTree fs child
      | _ => fs ← graftFrom fs location child
    catch _ => pure ()
  return fs

/-- The configuration files that a command may look at. -/
def configPaths (cli : CommandLine.Cli) : List Path :=
  (Config.fileNames ++ cli.config.toList).map Path.ofString

/-- The directories that a command reads and writes. -/
def directories (fs : FileSystem) (cli : CommandLine.Cli) : Option Path × Option Path :=
  let config := ((CommandLine.loadConfig fs cli.config).toOption.bind id)
  match cli.command with
  | .create source output _ =>
    (CommandLine.chooseDir source config Config.scanDir,
      CommandLine.chooseDir output config Config.outputDir)
  | .scan source => (CommandLine.chooseDir source config Config.scanDir, none)
  | .init _ => (none, none)

/-- Reads what a command may look at. -/
def load (cli : CommandLine.Cli) : IO FileSystem := do
  let cwd ← IO.FS.realPath (← IO.currentDir)
  let mut fs ← graftFrom ⟨.directory [], []⟩ (locationOf cwd.toString) cwd.toString
  fs := { fs with workingDirectory := locationOf cwd.toString }
  for path in configPaths cli do
    fs ← loadPath fs path
  let (source, output) := directories fs cli
  if let some path := output then
    fs ← loadPath fs (path.join CommandLine.outputFileName)
  if let some path := source then
    fs ← loadPath fs path
    fs ← loadTree fs path.display
  return fs

/-- Carries out a change. -/
def apply : Change → IO Unit
  | .remove location => IO.FS.removeFile (pathOf location)
  | .makeDir location => IO.FS.createDirAll (pathOf location)
  | .write location contents => IO.FS.writeBinFile (pathOf location) ⟨contents.toArray⟩

/-- Shows what can be seen of a run. -/
def emit (report : CommandLine.Report) : IO UInt32 := do
  IO.print report.stdout
  for line in report.stderr do
    IO.eprintln line
  return report.exitCode.toUInt32

end ErrorDocs.Main

/-- Runs the program with the given arguments. -/
def main (args : List String) : IO UInt32 := do
  match ErrorDocs.CommandLine.parse args with
  | .error stop => ErrorDocs.Main.emit stop.report
  | .ok cli =>
    let before ← ErrorDocs.Main.load cli
    let run := ErrorDocs.CommandLine.runCommand before cli
    (before.changes run.disk).forM ErrorDocs.Main.apply
    ErrorDocs.Main.emit (run.report cli.verbose)

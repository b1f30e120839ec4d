import ErrorDocs.Config.File

/-!
# Commands

What the program does, on a file system that is a value. A command ends with the file system as
it leaves it, what it has printed and said, and the reason it has failed, if it has.

* `create` writes the documentation of a directory.
* `scan` prints the blocks of a directory.
* `init` writes a new configuration file.
-/

namespace ErrorDocs.CommandLine

/-- Why a command fails: the text that states it, and those that state what is behind it. -/
structure Failure where
  message : String
  causes : List String := []
deriving DecidableEq, Repr

/-- How a command ends. -/
structure Run where
  disk : FileSystem
  log : List LogLine
  output : List Char := []
  failure : Option Failure := none

/-- The current directory. -/
def here : Path := .ofString "."

/-- The name of the file that documentation is written to. -/
def outputFileName : Path := .ofString "errogger-docs.json"

/-! ## Configuration -/

/-- The configuration file of a run: the one that is given, or else the one that is found. -/
def configFile? (fs : FileSystem) (given : Option String) : Option Path :=
  match given with
  | some path => some (.ofString path)
  | none => Config.discover? fs here

/-- The configuration of a run. -/
def loadConfig (fs : FileSystem) (given : Option String) : Except LoadError (Option Config) :=
  match configFile? fs given with
  | none => .ok none
  | some path =>
    match Config.ofFile fs path with
    | .error e => .error e
    | .ok c => .ok (some c)

/-- The line that tells which configuration is used. -/
def configLine (fs : FileSystem) (given : Option String) : LogLine :=
  match configFile? fs given with
  | some path => .info ("Using config: " ++ path.display)
  | none => .info "No config file found, using defaults"

/-- The directory that is given, or else the configured one. -/
def chooseDir (given : Option String) (config : Option Config)
    (configured : Config → Option Path) : Option Path :=
  match given with
  | some path => some (.ofString path)
  | none => config.bind configured

/-- The options of a scan under a configuration. -/
def optionsOf (config : Option Config) : ScanOptions :=
  match config with
  | some c => c.scanOptions
  | none => {}

/-! ## Create -/

/-- The lines that tell of the blocks that do not document an error. -/
def passedOver (r : ScanResult) : List LogLine :=
  (r.blocks.filter (!·.isError)).map fun b =>
    .debug
      ("Skipping block without @" ++ errorTag ++ " tag in " ++ b.filePath.display ++ ":" ++
        Number.natText b.startLine)

/-- Writes the documentation that a scan has given. -/
def writeDocs (fs : FileSystem) (log : List LogLine) (output : Path) (config : Option Config)
    (r : ScanResult) : Run :=
  let scheme := ErrorScheme.ofScan r (config.map (·.project))
  let log :=
    log ++ [.info ("Scanned " ++ Number.natText r.blocks.length ++ " documentation block(s)")] ++
      passedOver r ++
      [.info
        ("Translated scan result to Errogger Scheme with " ++
          Number.natText scheme.errors.length ++ " error(s).")]
  let file := output.join outputFileName
  match fs.writeFile file (Utf8.encode scheme.render) with
  | .error e =>
    { disk := fs
      log
      failure :=
        some
          { message := "Failed to write documentation to \"" ++ file.display ++ "\""
            causes := [e.message] } }
  | .ok fs' =>
    { disk := fs'
      log := log ++ [.info ("Errogger Source File written to \"" ++ file.display ++ "\"")] }

/-- Writes the documentation of a directory that is there. The output directory is made before
the scan. -/
def createIn (fs : FileSystem) (log : List LogLine) (config : Option Config) (parallel : Bool)
    (source output : Path) : Run :=
  let made := fs.makeDirs output
  match made.failure with
  | some e =>
    { disk := made.disk
      log
      failure :=
        some
          { message := "Failed to create output directory \"" ++ output.display ++ "\""
            causes := [e.message] } }
  | none =>
    let options := optionsOf config
    let options := { options with parallel := parallel || options.parallel }
    match Scan.scan made.disk options source with
    | .error e =>
      { disk := made.disk
        log
        failure := some { message := "Error during scanning", causes := e.messages } }
    | .ok r =>
      writeDocs made.disk (log ++ Scan.log made.disk options source r) output config r

/-- Writes the documentation of a directory. -/
def create (fs : FileSystem) (given : Option String) (source output : Option String)
    (parallel : Bool) : Run :=
  let log := [configLine fs given]
  match loadConfig fs given with
  | .error e => { disk := fs, log, failure := some { message := e.message } }
  | .ok config =>
    match chooseDir source config Config.scanDir, chooseDir output config Config.outputDir with
    | some source, some output =>
      if fs.pathExists source then createIn fs log config parallel source output
      else
        { disk := fs
          log
          failure :=
            some { message := "Source directory \"" ++ source.display ++ "\" does not exist." } }
    | _, _ =>
      { disk := fs
        log
        failure :=
          some
            { message :=
                "Source and output directories must be specified either via command line or " ++
                  "configuration file." } }

/-! ## Scan -/

/-- Prints the blocks of a directory. -/
def scan (fs : FileSystem) (given : Option String) (source : Option String) : Run :=
  let log := [configLine fs given]
  match loadConfig fs given with
  | .error e => { disk := fs, log, failure := some { message := e.message } }
  | .ok config =>
    match chooseDir source config Config.scanDir with
    | none =>
      { disk := fs
        log
        failure :=
          some
            { message :=
                "Source directory must be specified either via command line or configuration " ++
                  "file." } }
    | some source =>
      let options := optionsOf config
      match Scan.scan fs options source with
      | .error e =>
        { disk := fs, log, failure := some { message := e.message, causes := e.messages.tail } }
      | .ok r =>
        let log := log ++ Scan.log fs options source r
        match r.render? with
        | none => { disk := fs, log, failure := some { message := ScanResult.unwritable } }
        | some text => { disk := fs, log, output := text ++ ['\n'] }

/-! ## Init -/

/-- The path of a new configuration file. -/
def newConfig : Path := .ofString Config.newFileName

/-- Makes room for a new configuration file, when what is there may be overwritten. -/
def makeRoom (fs : FileSystem) : Except Failure FileSystem :=
  match fs.linkStatus newConfig with
  | .error .notFound => .ok fs
  | .error e => .error { message := e.message }
  | .ok entry =>
    if entry.isDirectory then
      .error { message := newConfig.display ++ " is a directory and cannot be overwritten." }
    else
      match fs.removeFile newConfig with
      | .error e => .error { message := e.message }
      | .ok fs' => .ok fs'

/-- Writes a new configuration file where there is room for it. -/
def writeTemplate (fs : FileSystem) : Run :=
  match fs.createFile newConfig (Utf8.encode Config.template.toList) with
  | .error e =>
    { disk := fs
      log := []
      failure :=
        some { message := "Failed to create " ++ newConfig.display, causes := [e.message] } }
  | .ok fs' => { disk := fs', log := [.info ("Created " ++ newConfig.display)] }

/-- Writes a new configuration file. -/
def init (fs : FileSystem) (force : Bool) : Run :=
  if force then
    match makeRoom fs with
    | .error failure => { disk := fs, log := [], failure := some failure }
    | .ok fs' => writeTemplate fs'
  else
    match Config.discover? fs here with
    | some path =>
      { disk := fs
        log := []
        failure :=
          some { message := path.display ++ " already exists. Use --force to overwrite." } }
    | none => writeTemplate fs

end ErrorDocs.CommandLine

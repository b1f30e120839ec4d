import ErrorDocs.Config.Basic

/-!
# Configuration files

A configuration is kept in a file of one of two names. The first of them that is there is the one
that counts.

* `Config.discover?` finds the file of a directory, `Config.ofFile` reads one.
-/

namespace ErrorDocs

/-- Why a file is no configuration. -/
inductive LoadError where
  | read (e : ReadError)
  | config (e : ConfigError)
deriving Repr

/-- The text that states a cause. -/
def LoadError.message : LoadError → String
  | .read e => "Configuration error: Failed to read config: " ++ e.message
  | .config e => "Configuration error: " ++ e.message

namespace Config

/-- The names of a configuration file, the first before the second. -/
def fileNames : List String := ["errogger.config.jsonc", "errogger.config.json"]

/-- The name of a new configuration file. -/
def newFileName : String := "errogger.config.jsonc"

/-- The text of a new configuration file. -/
def template : String :=
  "\x7b\n" ++
  "  // Project information copied into the generated scheme\n" ++
  "  \"meta\": \x7b\n" ++
  "    \"projectName\": \"Your Application Name\",\n" ++
  "    \"description\": \"The Application description\",\n" ++
  "    \"version\": \"1.0.0\"\n" ++
  "  \x7d,\n" ++
  "  \"paths\": \x7b\n" ++
  "    // Directory to scan for error definitions\n" ++
  "    \"scanDir\": \"./src/errors\",\n" ++
  "    // Directory errogger-docs.json is written to\n" ++
  "    \"sourceOutputDir\": \"./docs\"\n" ++
  "  \x7d,\n" ++
  "  \"options\": \x7b\n" ++
  "    // Directories to ignore in addition to the defaults\n" ++
  "    \"ignoreDirs\": [],\n" ++
  "    // File extensions to scan; leave empty to scan every file\n" ++
  "    \"whitelistExtensions\": [\".js\"]\n" ++
  "  \x7d\n" ++
  "\x7d\n"

/-- The configuration file of a directory. -/
def discover? (fs : FileSystem) (dir : Path) : Option Path :=
  (fileNames.map fun name => dir.join (.ofString name)).find? fs.isFile

/-- The configuration in a file. Its paths start from the directory of the file. -/
def ofFile (fs : FileSystem) (path : Path) : Except LoadError Config :=
  match fs.textAt path with
  | .error e => .error (.read e)
  | .ok text =>
    match ofText text with
    | .error e => .error (.config e)
    | .ok c => .ok { c with baseDir := path.parent? }

end Config

end ErrorDocs

import ErrorDocs.Config.Schema
import ErrorDocs.Json.Commented.Reader
import ErrorDocs.Scan.Basic
import ErrorDocs.Scheme.Json

/-!
# Configuration

What a project sets down once: what it says about itself, which directories are read and written,
and the options of a scan. A configuration is written in commented JSON and checked against a
schema; whatever it leaves out has a default.

* `Config.ofText` reads a configuration, `Config.render` writes one.
* `Config.scanOptions`, `Config.scanDir` and `Config.outputDir` are what it means for a run.
-/

namespace ErrorDocs

/-- The directories of a project, as they are written. -/
structure PathsConfig where
  scanDir : Option String := none
  sourceOutputDir : Option String := none
deriving DecidableEq, Repr, Inhabited

/-- The options of a scan, as they are written. -/
structure OptionsConfig where
  ignoreDirs : List String := []
  whitelistExtensions : List String := []
  maxFileSize : Option Nat := none
  parallel : Bool := false
deriving DecidableEq, Repr, Inhabited

/-- The configuration of a project. -/
structure Config where
  project : ProjectMeta := {}
  paths : PathsConfig := {}
  options : OptionsConfig := {}
  /-- The directory that relative paths start from, if not the current one. -/
  baseDir : Option Path := none
deriving DecidableEq, Repr, Inhabited

/-- Why a text is no configuration. -/
inductive ConfigError where
  /-- The text is not in the commented dialect. -/
  | json (text : List Char) (trouble : Json.Commented.Trouble)
  /-- The value violates the schema. -/
  | schema (violation : Violation)
  /-- The size is a floating point number. -/
  | floatingSize (x : Binary64)
deriving Repr

/-- The text that states a cause. -/
def ConfigError.message : ConfigError → String
  | .json text trouble => "Invalid JSON: " ++ trouble.message text
  | .schema violation => "Config validation failed: " ++ violation.message
  | .floatingSize x =>
    "Invalid config: invalid type: floating point `" ++
      String.ofList (Number.float x).render ++ "`, expected u64"

namespace Config

/-- What a configuration has to be. -/
def schema : Schema :=
  .object
    [("$schema", .string),
      ("meta", .object [("projectName", .string), ("description", .string), ("version", .string)]),
      ("paths", .object [("scanDir", .string), ("sourceOutputDir", .string)]),
      ("options",
        .object
          [("ignoreDirs", .array .string), ("whitelistExtensions", .array .string),
            ("maxFileSize", .natural), ("parallel", .boolean)])]

/-! ## Reading -/

/-- A text member of a section, if the section and the member are there. -/
def text? (section? : Option Json) (name : String) : Option String :=
  (section?.bind (·.get? name)).bind Json.asString?

/-- A list of texts in a section. -/
def texts (section? : Option Json) (name : String) : List String :=
  ((section?.bind (·.get? name)).bind Json.asStrings?).getD []

/-- What a value that obeys the schema says about the project. -/
def projectOf (v : Json) : ProjectMeta :=
  let s := v.get? "meta"
  { projectName := (text? s "projectName").getD ""
    description := (text? s "description").getD ""
    version := (text? s "version").getD "" }

/-- The directories that a value that obeys the schema names. -/
def pathsOf (v : Json) : PathsConfig :=
  let s := v.get? "paths"
  { scanDir := text? s "scanDir", sourceOutputDir := text? s "sourceOutputDir" }

/-- The size in a section. A floating point number is refused even if it is whole. -/
def sizeOf? (section? : Option Json) : Except ConfigError (Option Nat) :=
  match section?.bind (·.get? "maxFileSize") with
  | some (.number (.float x)) => .error (.floatingSize x)
  | some v => .ok v.asNat?
  | none => .ok none

/-- The options in a value that obeys the schema. -/
def optionsOf (v : Json) : Except ConfigError OptionsConfig :=
  let s := v.get? "options"
  match sizeOf? s with
  | .error e => .error e
  | .ok maxFileSize =>
    .ok
      { ignoreDirs := texts s "ignoreDirs"
        whitelistExtensions := texts s "whitelistExtensions"
        maxFileSize
        parallel := ((s.bind (·.get? "parallel")).bind Json.asBool?).getD false }

/-- The configuration that a value is. -/
def ofJson (v : Json) : Except ConfigError Config :=
  match schema.check v with
  | some violation => .error (.schema violation)
  | none =>
    match optionsOf v with
    | .error e => .error e
    | .ok options => .ok { project := projectOf v, paths := pathsOf v, options }

/-- The configuration that a text is. A text without a value counts as an empty object. -/
def ofText (text : List Char) : Except ConfigError Config :=
  match Json.Commented.read text with
  | .error trouble => .error (.json text trouble)
  | .ok v => ofJson (v.getD (.object []))

/-! ## Writing -/

/-- A member that is left out when it has no value. -/
def optional (name : String) (v : Option Json) : List (String × Json) :=
  match v with
  | some v => [(name, v)]
  | none => []

/-- The directories as JSON. -/
def pathsJson (p : PathsConfig) : Json :=
  .object
    (optional "scanDir" (p.scanDir.map .string) ++
      optional "sourceOutputDir" (p.sourceOutputDir.map .string))

/-- The options as JSON. -/
def optionsJson (o : OptionsConfig) : Json :=
  .object
    ([("ignoreDirs", .ofStrings o.ignoreDirs),
        ("whitelistExtensions", .ofStrings o.whitelistExtensions)] ++
      optional "maxFileSize" (o.maxFileSize.map .ofNat) ++ [("parallel", .bool o.parallel)])

/-- A configuration as JSON. The directory it comes from is not part of it. -/
def toJson (c : Config) : Json :=
  .object
    [("meta", c.project.toJson), ("paths", pathsJson c.paths), ("options", optionsJson c.options)]

/-- A configuration as text. -/
def render (c : Config) : List Char :=
  c.toJson.compact

/-! ## Meaning -/

/-- The options of a scan. -/
def scanOptions (c : Config) : ScanOptions where
  ignoreDirs := c.options.ignoreDirs
  whitelistExtensions := c.options.whitelistExtensions
  maxFileSize := c.options.maxFileSize.getD Filter.defaultMaxFileSize
  parallel := c.options.parallel

/-- A path of the configuration, seen from the directory it comes from. -/
def locate (c : Config) (path : String) : Path :=
  match c.baseDir with
  | some base => base.join (.ofString path)
  | none => .ofString path

/-- The directory to scan. -/
def scanDir (c : Config) : Option Path :=
  c.paths.scanDir.map c.locate

/-- The directory to write to. -/
def outputDir (c : Config) : Option Path :=
  c.paths.sourceOutputDir.map c.locate

end Config

end ErrorDocs

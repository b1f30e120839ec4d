import ErrorDocs.CommandLine.Arguments

/-!
# Help

The texts that explain the command line.
-/

namespace ErrorDocs.CommandLine

/-- The text that names the program and its version. -/
def versionText : String := "errogger 0.1.0\n"

/-- The options that every command has. -/
def commonOptions : List String :=
  ["  -c, --config <CONFIG>  Configuration file path",
    "  -v, --verbose          Enable verbose output",
    "  -h, --help             Print help"]

/-- The lines of the help about a topic. -/
def helpLines : Topic → List String
  | .program =>
    ["Create documentation from your errors",
      "",
      "Usage: errogger [OPTIONS] <COMMAND>",
      "",
      "Commands:",
      "  create  Create errogger documentation from a source directory",
      "  scan    Scan a directory and print every documentation block as JSON",
      "  init    Initialize configuration",
      "  help    Print this message or the help of the given subcommand(s)",
      "",
      "Options:"] ++ commonOptions ++
      ["  -V, --version          Print version"]
  | .create =>
    ["Create errogger documentation from a source directory",
      "",
      "Usage: errogger create [OPTIONS] [SOURCE_DIR] [OUTPUT_DIR]",
      "",
      "Arguments:",
      "  [SOURCE_DIR]  Directory to scan (defaults to `paths.scanDir` from the config)",
      "  [OUTPUT_DIR]  Directory to write errogger-docs.json to (defaults to " ++
        "`paths.sourceOutputDir`)",
      "",
      "Options:",
      "      --parallel         Read and parse files in parallel"] ++ commonOptions
  | .scan =>
    ["Scan a directory and print every documentation block as JSON",
      "",
      "Usage: errogger scan [OPTIONS] [SOURCE_DIR]",
      "",
      "Arguments:",
      "  [SOURCE_DIR]  Directory to scan (defaults to `paths.scanDir` from the config)",
      "",
      "Options:"] ++ commonOptions
  | .init =>
    ["Initialize configuration",
      "",
      "Usage: errogger init [OPTIONS]",
      "",
      "Options:",
      "      --force            Force overwrite existing config"] ++ commonOptions
  | .help =>
    ["Print this message or the help of the given subcommand(s)",
      "",
      "Usage: errogger help [COMMAND]...",
      "",
      "Arguments:",
      "  [COMMAND]...  Print help for the subcommand(s)"]

/-- The help about a topic. -/
def helpText (topic : Topic) : String :=
  String.join ((helpLines topic).map (· ++ "\n"))

end ErrorDocs.CommandLine

import ErrorDocs.CommandLine.Commands
import ErrorDocs.CommandLine.Help

/-!
# The program

A run of the program from its arguments: what it prints, the lines it writes about its work, its
exit code, and the file system it leaves.
-/

namespace ErrorDocs.CommandLine

/-- What can be seen of a run. -/
structure Report where
  exitCode : Nat
  stdout : String
  stderr : List String
deriving DecidableEq, Repr

/-- The exit code of a run that has failed. -/
def failureCode : Nat := 2

/-- Runs a command. -/
def runCommand (fs : FileSystem) (cli : Cli) : Run :=
  match cli.command with
  | .create source output parallel => create fs cli.config source output parallel
  | .scan source => scan fs cli.config source
  | .init force => init fs force

/-- The texts that tell why a command has failed. -/
def Failure.texts (f : Failure) : List String :=
  (LogLine.mk .error f.message).render :: f.causes.map ("    Caused by: " ++ ·)

/-- The lines that a text of the log is shown as. -/
def shownLines (text : String) : List String :=
  Terminal.lines (Terminal.escape text.toList)

/-- What can be seen of a command that has run. -/
def Run.report (verbose : Bool) (r : Run) : Report :=
  let texts := (r.log.filter (·.isShown verbose)).map LogLine.render
  match r.failure with
  | none => ⟨0, String.ofList r.output, texts.flatMap shownLines⟩
  | some f => ⟨failureCode, String.ofList r.output, (texts ++ f.texts).flatMap shownLines⟩

/-- What can be seen of a run without a command. -/
def Stop.report : Stop → Report
  | .help topic => ⟨0, helpText topic, []⟩
  | .version => ⟨0, versionText, []⟩
  | .nothing => ⟨failureCode, "", helpLines .program⟩
  | .usage e => ⟨failureCode, "", e.lines⟩

/-- Runs the program. -/
def run (fs : FileSystem) (args : List String) : Report × FileSystem :=
  match parse args with
  | .error stop => (stop.report, fs)
  | .ok cli =>
    let r := runCommand fs cli
    (r.report cli.verbose, r.disk)

end ErrorDocs.CommandLine

import ErrorDocs.Text.Terminal

/-!
# Command line arguments

The command line is read argument by argument: first those of the program, up to the name of a
command, then those of the command. Options may have a short and a long form, short ones may be
written together, and `--` ends the options. The configuration file and the verbosity may be given
on either side of the command's name; what stands after it wins.

An option or a value is checked when the next argument comes, or at the end: until then it is
pending. What is pending where the name of a command stands is checked after the arguments of the
command.

* `parse` gives the command to run, or why there is none.
-/

namespace ErrorDocs.CommandLine

/-- What the program is asked to do. -/
inductive Command where
  /-- Write the documentation of a source directory to an output directory. -/
  | create (source output : Option String) (parallel : Bool)
  /-- Print the blocks of a source directory. -/
  | scan (source : Option String)
  /-- Write a new configuration file. -/
  | init (force : Bool)
deriving DecidableEq, Repr

/-- A command line. -/
structure Cli where
  config : Option String
  verbose : Bool
  command : Command
deriving DecidableEq, Repr

/-- What there is help about. -/
inductive Topic where
  | program
  | create
  | scan
  | init
  | help
deriving DecidableEq, Repr

/-- The arguments that are named in messages. -/
inductive Argument where
  | config
  | verbose
  | parallel
  | force
  | help
  | version
  | sourceDir
  | outputDir
deriving DecidableEq, Repr

/-- How an argument is named in messages. -/
def Argument.text : Argument → String
  | .config => "--config <CONFIG>"
  | .verbose => "--verbose"
  | .parallel => "--parallel"
  | .force => "--force"
  | .help => "--help"
  | .version => "--version"
  | .sourceDir => "[SOURCE_DIR]"
  | .outputDir => "[OUTPUT_DIR]"

/-- Why a command line is refused. -/
inductive UsageError where
  | unrecognizedCommand (name : List Char)
  | unexpectedArgument (text : List Char)
  | valueRequired (argument : Argument)
  | repeated (argument : Argument)
  | unneededValue (value : List Char) (argument : Argument)
  | missingCommand
deriving DecidableEq, Repr

/-- What is shown of an argument in a message. -/
def shownText (argument : List Char) : String :=
  String.ofList (Terminal.strip argument)

/-- The text that states a cause. -/
def UsageError.message : UsageError → String
  | .unrecognizedCommand name => "error: unrecognized subcommand '" ++ shownText name ++ "'"
  | .unexpectedArgument text => "error: unexpected argument '" ++ shownText text ++ "' found"
  | .valueRequired argument =>
    "error: a value is required for '" ++ argument.text ++ "' but none was supplied"
  | .repeated argument =>
    "error: the argument '" ++ argument.text ++ "' cannot be used multiple times"
  | .unneededValue value argument =>
    "error: unexpected value '" ++ shownText value ++ "' for '" ++ argument.text ++
      "' found; no more were expected"
  | .missingCommand =>
    "error: 'errogger' requires a subcommand but one was not provided\n" ++
      "  [subcommands: create, scan, init, help]"

/-- The lines that state a cause: the first paragraph of its text. -/
def UsageError.lines (e : UsageError) : List String :=
  (Terminal.lines e.message.toList).takeWhile (!·.isEmpty)

/-- Why a command line gives no command to run. -/
inductive Stop where
  /-- Help is asked for. -/
  | help (topic : Topic)
  /-- The version is asked for. -/
  | version
  /-- Nothing is asked for. -/
  | nothing
  | usage (e : UsageError)
deriving DecidableEq, Repr

/-- Refuses a command line. -/
def refuse {α : Type} (e : UsageError) : Except Stop α :=
  .error (.usage e)

/-! ## The arguments of the program or of one command -/

/-- An argument that has been met and not yet been checked. -/
inductive Pending where
  /-- The configuration option, with its value if that has come. -/
  | config (value : Option (List Char))
  /-- A value without an option. -/
  | value (text : List Char)
deriving DecidableEq, Repr

/-- What has been read of the arguments of the program or of a command. -/
structure State where
  topic : Topic
  config : Option (List Char) := none
  verbose : Bool := false
  /-- Whether the command's own flag has been given. -/
  flag : Bool := false
  /-- The values without an option. -/
  values : List (List Char) := []
  pending : Option Pending := none
  /-- Whether `--` has been met. -/
  onlyValues : Bool := false
deriving DecidableEq, Repr

/-- The values without an option that a topic takes. -/
def Topic.valueNames : Topic → List Argument
  | .create => [.sourceDir, .outputDir]
  | .scan => [.sourceDir]
  | _ => []

/-- The flag of a command. -/
def Topic.flag? : Topic → Option Argument
  | .create => some .parallel
  | .init => some .force
  | _ => none

namespace State

/-- Sets the configuration file. -/
def setConfig (s : State) (value : List Char) : Except Stop State :=
  if s.config.isSome then refuse (.repeated .config)
  else if value.isEmpty then refuse (.valueRequired .config)
  else .ok { s with config := some value }

/-- Adds a value without an option. -/
def addValue (s : State) (text : List Char) : Except Stop State :=
  match s.topic.valueNames[s.values.length]? with
  | none => refuse (.unexpectedArgument text)
  | some argument =>
    if text.isEmpty then refuse (.valueRequired argument)
    else .ok { s with values := s.values ++ [text] }

/-- Checks what is pending. -/
def settle (s : State) : Except Stop State :=
  match s.pending with
  | none => .ok s
  | some (.config none) => refuse (.valueRequired .config)
  | some (.config (some value)) => { s with pending := none }.setConfig value
  | some (.value text) => { s with pending := none }.addValue text

/-- Whether an option is waiting for its value. -/
def awaitsValue (s : State) : Bool :=
  s.pending == some (.config none)

/-- Takes a flag. -/
def takeFlag (s : State) (argument : Argument) : Except Stop State :=
  match s.settle with
  | .error e => .error e
  | .ok s =>
    match argument with
    | .help => .error (.help s.topic)
    | .version => .error .version
    | .verbose => if s.verbose then refuse (.repeated .verbose) else .ok { s with verbose := true }
    | argument => if s.flag then refuse (.repeated argument) else .ok { s with flag := true }

/-- Takes the configuration option, with the value that is written in one with it, if any. -/
def takeConfig (s : State) (attached : Option (List Char)) : Except Stop State :=
  match s.settle with
  | .error e => .error e
  | .ok s =>
    match attached with
    | some value => s.setConfig value
    | none => .ok { s with pending := some (.config none) }

/-- The flag of a given long name. -/
def longFlag? (s : State) (name : List Char) : Option Argument :=
  if name = "verbose".toList then some .verbose
  else if name = "help".toList then some .help
  else if name = "version".toList ∧ s.topic = .program then some .version
  else
    match s.topic.flag? with
    | some argument => if '-' :: '-' :: name = argument.text.toList then some argument else none
    | none => none

/-- Takes a long option, which may have a value after an equals sign. -/
def takeLong (s : State) (text : List Char) : Except Stop State :=
  let name := text.takeWhile (· != '=')
  let attached :=
    match text.dropWhile (· != '=') with
    | [] => none
    | _ :: value => some value
  if name = "config".toList then s.takeConfig attached
  else
    match s.longFlag? name, attached with
    | none, _ => refuse (.unexpectedArgument ('-' :: '-' :: name))
    | some argument, some value => refuse (.unneededValue value argument)
    | some argument, none => s.takeFlag argument

/-- The flag of a given short name. -/
def shortFlag? (s : State) (c : Char) : Option Argument :=
  if c = 'v' then some .verbose
  else if c = 'h' then some .help
  else if c = 'V' ∧ s.topic = .program then some .version
  else none

/-- The value that is written in one with a short option. -/
def attachedShort : List Char → Option (List Char)
  | [] => none
  | '=' :: value => some value
  | value => some value

/-- Takes short options that are written together. -/
def takeShort (s : State) : List Char → Except Stop State
  | [] => .ok s
  | c :: rest =>
    if c = 'c' then s.takeConfig (attachedShort rest)
    else
      match s.shortFlag? c with
      | none => refuse (.unexpectedArgument ['-', c])
      | some argument =>
        match s.takeFlag argument with
        | .error e => .error e
        | .ok s => s.takeShort rest

/-- How many values without an option have been met. -/
def valueCount (s : State) : Nat :=
  match s.pending with
  | some (.value _) => s.values.length + 1
  | _ => s.values.length

/-- Takes a value without an option. -/
def takeValue (s : State) (text : List Char) : Except Stop State :=
  if s.valueCount < s.topic.valueNames.length then
    match s.settle with
    | .error e => .error e
    | .ok s => .ok { s with pending := some (.value text) }
  else refuse (.unexpectedArgument text)

/-- Takes an argument that is not the name of a command. -/
def take (s : State) (text : List Char) : Except Stop State :=
  if s.onlyValues then s.takeValue text
  else
    match text with
    | ['-', '-'] => .ok { s with onlyValues := true }
    | '-' :: '-' :: long => s.takeLong long
    | '-' :: c :: short => s.takeShort (c :: short)
    | text =>
      if s.awaitsValue then .ok { s with pending := some (.config (some text)) }
      else s.takeValue text

end State

/-! ## The whole command line -/

/-- The command of a given name. -/
def commandTopic? (name : List Char) : Option Topic :=
  if name = "create".toList then some .create
  else if name = "scan".toList then some .scan
  else if name = "init".toList then some .init
  else if name = "help".toList then some .help
  else none

/-- The help that is asked for by the names after `help`. -/
def helpStop (topic : Topic) : List (List Char) → Stop
  | [] => .help topic
  | name :: rest =>
    match topic, commandTopic? name with
    | .program, some t => helpStop t rest
    | _, _ => .usage (.unrecognizedCommand name)

/-- Reads the arguments of a command to their end. -/
def parseCommand (s : State) : List (List Char) → Except Stop State
  | [] => s.settle
  | text :: rest =>
    match s.take text with
    | .error e => .error e
    | .ok s => parseCommand s rest

/-- Takes an argument of the program that is not the name of a command. There are no values
without an option here, so that such an argument is taken for a command that does not exist. -/
def takeProgramArgument (s : State) (text : List Char) : Except Stop State :=
  match s.take text with
  | .error (.usage (.unexpectedArgument t)) =>
    if t = text ∧ (s.onlyValues ∨ text.head? ≠ some '-' ∨ text = ['-']) then
      if s.onlyValues ∧ (commandTopic? text).isSome then refuse (.unexpectedArgument text)
      else refuse (.unrecognizedCommand text)
    else refuse (.unexpectedArgument t)
  | r => r

/-- Reads the arguments of the program up to the name of a command, and gives the command and what
comes after it. -/
def parseProgram (s : State) : List (List Char) → Except Stop (State × Topic × List (List Char))
  | [] =>
    match s.settle with
    | .error e => .error e
    | .ok s => if s.config.isNone && !s.verbose then .error .nothing else refuse .missingCommand
  | text :: rest =>
    match (if s.onlyValues || s.awaitsValue then none else commandTopic? text) with
    | some .help => .error (helpStop .program rest)
    | some topic => .ok (s, topic, rest)
    | none =>
      match takeProgramArgument s text with
      | .error e => .error e
      | .ok s => parseProgram s rest

/-- The command that a topic and its arguments make. -/
def commandOf (s : State) : Command :=
  let value (n : Nat) : Option String := s.values[n]?.map String.ofList
  match s.topic with
  | .create => .create (value 0) (value 1) s.flag
  | .init => .init s.flag
  | _ => .scan (value 0)

/-- Reads a command line. -/
def parse (args : List String) : Except Stop Cli :=
  match parseProgram { topic := .program } (args.map String.toList) with
  | .error e => .error e
  | .ok (outer, topic, rest) =>
    match parseCommand { topic } rest with
    | .error e => .error e
    | .ok inner =>
      match outer.settle with
      | .error e => .error e
      | .ok outer =>
        .ok
          { config := (inner.config.or outer.config).map String.ofList
            verbose := inner.verbose || outer.verbose
            command := commandOf inner }

end ErrorDocs.CommandLine

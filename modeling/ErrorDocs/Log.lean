/-!
# Log lines

What the program says while it works. Lines for debugging are shown on request only.
-/

namespace ErrorDocs

/-- How important a log line is. -/
inductive Level where
  | debug
  | info
  | error
deriving DecidableEq, Repr

/-- The text of a level. -/
def Level.text : Level → String
  | .debug => "DEBUG"
  | .info => "INFO"
  | .error => "ERROR"

/-- A log line. -/
structure LogLine where
  level : Level
  message : String
deriving DecidableEq, Repr

namespace LogLine

/-- A line for debugging. -/
def debug (message : String) : LogLine :=
  ⟨.debug, message⟩

/-- A line for the user. -/
def info (message : String) : LogLine :=
  ⟨.info, message⟩

/-- A line as it is shown. -/
def render (l : LogLine) : String :=
  l.level.text ++ " " ++ l.message

/-- Lines that are shown. -/
def isShown (verbose : Bool) (l : LogLine) : Bool :=
  verbose || l.level != .debug

end LogLine

end ErrorDocs

/-!
# Log levels

How much of what a program does is told, from errors alone to everything.
-/

namespace DataQuality

/-- The level of a message, or the last level that is shown. -/
inductive LogLevel where
  | error
  | warn
  | info
  | debug
  | trace
  deriving DecidableEq, Repr

namespace LogLevel

/-- The name of a level. -/
def name : LogLevel → String
  | .error => "ERROR"
  | .warn => "WARN"
  | .info => "INFO"
  | .debug => "DEBUG"
  | .trace => "TRACE"

/-- How far a level is from errors. -/
def rank : LogLevel → Nat
  | .error => 0
  | .warn => 1
  | .info => 2
  | .debug => 3
  | .trace => 4

/-- Whether messages of a level are shown if `last` is the last that is. -/
def isShown (last level : LogLevel) : Bool := level.rank ≤ last.rank

/-- The last level shown, after how often more was asked for; who wants quiet gets it. -/
def ofVerbosity (verbose : Nat) (quiet : Bool) : LogLevel :=
  if quiet then .error
  else match verbose with
    | 0 => .info
    | 1 => .debug
    | _ => .trace

/-- Errors are shown at every level. -/
theorem isShown_error (last : LogLevel) : last.isShown .error := by cases last <;> rfl

end LogLevel

end DataQuality

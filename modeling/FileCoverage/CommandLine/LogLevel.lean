import FileCoverage.Environment.Variables
import FileCoverage.Event
import FileCoverage.Text.Blank

/-!
# Log levels

How much the program tells of what it does, by a flag of the call or else by a variable.
-/

namespace FileCoverage

/-- The least important messages that are shown. -/
inductive LogLevel where
  | debug
  | info
  | warning
  | error
  deriving DecidableEq, Repr

namespace LogLevel

def name : LogLevel → Text
  | debug => "DEBUG"
  | info => "INFO"
  | warning => "WARNING"
  | error => "ERROR"

def names : List (Text × LogLevel) :=
  [("debug", debug), ("warning", warning), ("warn", warning), ("error", error)]

def choose (verbose : Bool) (vars : Variables) : LogLevel :=
  if verbose then debug
  else
    let named := Text.lower (Text.trim ((vars.get? "RUNCOV_LOG_LEVEL").getD []))
    (names.lookup named).getD info

def importance : LogLevel → Nat
  | debug => 0
  | info => 1
  | warning => 2
  | error => 3

end LogLevel

/-- The level of the message about an event. -/
def Event.level : Event → LogLevel
  | .launchFailed _ _ => .error
  | _ => .warning

/-- The events whose messages are shown. -/
def LogLevel.shown (least : LogLevel) (events : List Event) : List Event :=
  events.filter fun event => least.importance ≤ event.level.importance

end FileCoverage

import FileCoverage.Environment.ShellWords
import FileCoverage.Environment.Variables
import FileCoverage.Event
import FileCoverage.Number.Numeral

/-!
# Settings

Each setting is read from a variable and has a value of its own if the variable is not set or empty.
A number that cannot be read is warned of and replaced by that value; one that is too small is
raised to the least that makes sense.
-/

namespace FileCoverage.Settings

def defaultCommand : Text := "bazel coverage \x7blabel\x7d"

def defaultExemptionsPath : Text := "scripts/assets/test_file_exemptions.json"

def defaultReportsFolder : Text := "coverage_reports"

def defaultTimeout : Int := 10

def defaultWorkers : Int := 4

/-- The time that a process has to end when it is asked to, in seconds. -/
def defaultGrace : Binary64 := Binary64.ofNat 8

def integer (vars : Variables) (name : Text) (default : Int) : Int × List Event :=
  match Numeral.parse (vars.getOr name (Text.ofInt default)) with
  | .ok n => (n, [])
  | .error _ => (default, [.invalidInteger name default])

def real (vars : Variables) (name : Text) (default : Binary64) : Binary64 × List Event :=
  match Binary64.parse? (vars.getOr name default.toText) with
  | some x => (x, [])
  | none => (default, [.invalidReal name default])

/-- The minutes that one target has, at least one. -/
def timeoutMinutes (vars : Variables) : Int × List Event :=
  let (n, events) := integer vars "RUNCOV_PROCESS_TIMEOUT_MINUTES" defaultTimeout
  (max 1 n, events)

def command (vars : Variables) : Except ShellWords.Fault (List Text) :=
  ShellWords.split (vars.getOr "RUNCOV_COVERAGE_COMMAND" defaultCommand)

/-- The path of the exemptions, as seen from the repository root. -/
def exemptionsPath (vars : Variables) (root : Path) : Path :=
  root.child (vars.getOr "RUNCOV_EXEMPTIONS_PATH" defaultExemptionsPath)

def reportsFolder (vars : Variables) : Text :=
  vars.getOr "RUNCOV_REPORTS_DIR" defaultReportsFolder

/-- How many targets may run at a time, at least one. -/
def maxWorkers (vars : Variables) : Int × List Event :=
  let (n, events) := integer vars "RUNCOV_MAX_WORKERS" defaultWorkers
  (max 1 n, events)

/-- The seconds that a process has to end when it is asked to, at least one. -/
def cancelGrace (vars : Variables) : Binary64 × List Event :=
  let (x, events) := real vars "RUNCOV_CANCEL_GRACE_S" defaultGrace
  (x.atLeastOne, events)

end FileCoverage.Settings

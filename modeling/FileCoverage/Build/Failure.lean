import FileCoverage.Coverage.Merge
import FileCoverage.FileTree.Workspace
import FileCoverage.Number.Layout

/-!
# Failures of targets

A target that gives no coverage fails for one cause.  The failure of one target is a value beside
the results of the others; it ends nothing.
-/

namespace FileCoverage

inductive FailureKind where
  | timeout
  | nonZeroExit
  | missingArtifact
  | noCoverageData
  | launchError
  deriving DecidableEq, Repr

def FailureKind.name : FailureKind → Text
  | .timeout => "timeout"
  | .nonZeroExit => "non_zero_exit"
  | .missingArtifact => "missing_artifact"
  | .noCoverageData => "no_coverage_data"
  | .launchError => "launch_error"

/-- Why a target gives no coverage. -/
inductive FailureCause where
  /-- No process may be started any more. -/
  | cancelled
  /-- The program cannot be started. -/
  | launch (fault : AccessFault) (program : Text)
  | timedOut (seconds : Binary64)
  | exited (code : Int)
  /-- The tracefile is not there; its path is given if one is known. -/
  | missingArtifact (path : Option Path)
  /-- The tracefile says nothing about the source file. -/
  | noCoverageData (source : Text) (artifact : Path)
  deriving DecidableEq, Repr

namespace FailureCause

def kind : FailureCause → FailureKind
  | cancelled | launch .. => .launchError
  | timedOut .. => .timeout
  | exited .. => .nonZeroExit
  | missingArtifact .. => .missingArtifact
  | noCoverageData .. => .noCoverageData

def artifactName : Text := "coverage.dat"

def message : FailureCause → Text
  | cancelled => "run cancelled"
  | launch fault program => "failed to start: " ++ fault.message program
  | timedOut seconds => "timed out after " ++ seconds.toBriefText ++ "s"
  | exited code => "exited with status " ++ Text.ofInt code
  | missingArtifact path =>
    "coverage data not found (" ++ (path.map Path.toText).getD artifactName ++ ")"
  | noCoverageData source artifact =>
    "no coverage data for " ++ source ++ " in " ++ artifact.toText

/-- The status with which the process ended, if it ended by itself. -/
def exitCode? : FailureCause → Option Int
  | cancelled | launch .. | timedOut .. => none
  | exited code => some code
  | missingArtifact .. | noCoverageData .. => some 0

end FailureCause

/-- A target that gives no coverage. -/
structure RunFailure where
  target : TestTarget
  cause : FailureCause
  /-- The end of what the process has written. -/
  output : Text
  deriving DecidableEq, Repr

def RunFailure.outputLimit : Nat := 4000

/-- The failure of a target after a process that has written the given output. -/
def RunFailure.withOutput (target : TestTarget) (cause : FailureCause) (output : Text) :
    RunFailure :=
  ⟨target, cause, Text.takeLast outputLimit output⟩

/-- The failure of a target for which no process has run. -/
def RunFailure.silent (target : TestTarget) (cause : FailureCause) : RunFailure :=
  ⟨target, cause, []⟩

abbrev RunResult := Except RunFailure TargetCoverage

end FileCoverage

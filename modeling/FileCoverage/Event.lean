import FileCoverage.Build.Failure

/-!
# Events

An event is something that the user is warned of while the program goes on.  Targets are named by
their labels.
-/

namespace FileCoverage

inductive Event where
  /-- A process ran out of time; `forceKilled` says that asking it to end was not enough. -/
  | timedOut (target : Text) (forceKilled : Bool)
  /-- A process ended with a status that is not zero. -/
  | exited (target : Text) (code : Int)
  | launchFailed (target : Text) (error : Text)
  /-- A tracefile reports lines that the source file does not have. -/
  | linesOutOfRange (target : Text) (lines : List Int)
  /-- A target gives no coverage. -/
  | targetFailed (target : Text) (kind : FailureKind) (message : Text)
  /-- A process is being ended because the run is. -/
  | cancelled
  | invalidInteger (name : Text) (default : Int)
  | invalidReal (name : Text) (default : Binary64)
  deriving DecidableEq, Repr

end FileCoverage

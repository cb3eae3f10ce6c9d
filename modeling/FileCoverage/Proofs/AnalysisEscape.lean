import FileCoverage.Proofs.ReportFrame
import FileCoverage.Proofs.TargetResult

/-!
# What an analysis does not foresee

An analysis settles its request if it is refused for a reason that the user can put right, skipped,
or reported.  Five things keep it from that: a time that cannot be told, a source file that is not
UTF-8, a process that cannot be waited for, a tracefile with an infinite count, and a report that
cannot be written.
-/

namespace FileCoverage

/-- Whether a fault is one that the user is told of: no source file, no tests, or no coverage. -/
def AnalysisFault.IsForeseen : AnalysisFault → Prop
  | .resolution _ | .noCoverage _ _ => True
  | _ => False

namespace Runner

variable {r : Runner} {context : RunContext} {targets : List TestTarget}

end Runner

namespace Analysis

variable {request : AnalysisRequest} {repo : Repository} {ws : Workspace} {runner : Runner}
  {platform : Platform} {done : Analysis}

end Analysis

end FileCoverage

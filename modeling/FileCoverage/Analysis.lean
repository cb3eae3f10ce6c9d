import FileCoverage.Build.Runner
import FileCoverage.Report.Location
import FileCoverage.Report.Render
import FileCoverage.Resolution

/-!
# Analysis of a source file

The tests of a source file are run, their coverages are merged, and a report is written.  The report
is the only file that changes, and it is written last: whatever stops the analysis before that
leaves every file as it was.  Folders for a report that then cannot be written may have been made,
and what stops the writing itself leaves a part of the report in place of the earlier one.
-/

namespace FileCoverage

/-- What to analyse, and where and how to report it. -/
structure AnalysisRequest where
  source : Text
  format : ReportFormat
  output : Path
  timeout : Duration

def RunFailure.summary (failure : RunFailure) : Text :=
  failure.target.label ++ ": " ++ failure.cause.message

/-- Why an analysis ends without a report. -/
inductive AnalysisFault where
  | resolution (fault : ResolutionFault)
  /-- No target gives coverage. -/
  | noCoverage (path : Text) (failures : List RunFailure)
  | aborted (abort : Abort)
  | file (fault : FileFault)
  /-- The report has been written in part. -/
  | storage (fault : StorageFault)
  | length (fault : LengthFault)
  /-- No number of 64 bits can hold the time that one target has. -/
  | timeoutTooLong
  deriving DecidableEq, Repr

def reasons (failures : List RunFailure) : Text :=
  if failures = [] then "no test targets ran"
  else Text.join "; " (failures.map RunFailure.summary)

def AnalysisFault.message : AnalysisFault → Text
  | .resolution fault => fault.message
  | .noCoverage path failures =>
    "Coverage analysis failed for " ++ path ++ ": " ++ reasons failures
  | .aborted abort => abort.message
  | .file fault => fault.message
  | .storage fault => fault.message
  | .length fault => fault.message
  | .timeoutTooLong => Duration.tooLongMessage

/-- What a fault in the writing of the report is to the analysis. -/
def AnalysisFault.ofWrite : WriteFault → AnalysisFault
  | .file fault => .file fault
  | .storage fault => .storage fault
  | .interrupted => .aborted .interrupted

inductive Outcome where
  | skipped (reason : SkipReason)
  | reported (coverage : Coverage) (output : Path) (failures : List RunFailure)
  deriving DecidableEq, Repr

/-- An analysis that has ended: what it came to, and what it did. -/
structure Analysis where
  outcome : Except AnalysisFault Outcome
  /-- What the user is told. -/
  echo : Text
  workspace : Workspace
  launches : List Launch
  events : List Event

namespace Analysis

def idle (ws : Workspace) (outcome : Except AnalysisFault Outcome) : Analysis :=
  ⟨outcome, [], ws, [], []⟩

/-- What is warned of if a target has failed. -/
def failureEvent (failure : RunFailure) : Event :=
  .targetFailed failure.target.label failure.cause.kind failure.cause.message

/-- The coverage of a source file from the results of its targets. -/
def mergeResults (request : AnalysisRequest) (source : SourceFile)
    (results : KeyedList TestTarget RunResult) : Except AnalysisFault Coverage :=
  match successes results with
  | [] => .error (.noCoverage (RepositoryPath.normalize request.source) (failures results))
  | records =>
    match Coverage.merge source records with
    | .error fault => .error (.length fault)
    | .ok coverage => .ok coverage

/-- The workspace after writing the report, and the fault that ended it, if one did. -/
def writeReport (request : AnalysisRequest) (ws : Workspace) (storage : Storage)
    (coverage : Coverage) : Workspace × Option WriteFault :=
  ws.writeText storage request.output (Report.render coverage request.format)

/-- Merges the results of the targets of a source file and writes the report. -/
def conclude (request : AnalysisRequest) (ws : Workspace) (storage : Storage) (source : SourceFile)
    (results : KeyedList TestTarget RunResult) : Except AnalysisFault Outcome × Workspace :=
  match mergeResults request source results with
  | .error fault => (.error fault, ws)
  | .ok coverage =>
    match writeReport request ws storage coverage with
    | (ws, some fault) => (.error (.ofWrite fault), ws)
    | (ws, none) => (.ok (.reported coverage request.output (failures results)), ws)

/-- Runs the targets of a source file that has been read. -/
def runTargets (request : AnalysisRequest) (ws : Workspace) (runner : Runner) (platform : Platform)
    (source : SourceFile) (targets : List TestTarget) : Runner × Analysis :=
  let (runner, done) := runner.run ⟨ws, platform, source, request.timeout⟩ targets
  match done.outcome with
  | .error abort => (runner, ⟨.error (.aborted abort), [], ws, done.launches, done.events⟩)
  | .ok results =>
    let events := done.events ++ (failures results).map failureEvent
    let (outcome, ws) := conclude request ws platform.storage source results
    (runner, ⟨outcome, [], ws, done.launches, events⟩)

/-- Analyses a source file, in a time per target that can be told. -/
def runTimed (request : AnalysisRequest) (repo : Repository) (ws : Workspace) (runner : Runner)
    (platform : Platform) : Runner × Analysis :=
  let path := RepositoryPath.normalize request.source
  if !repo.hasFile ws path then
    (runner, idle ws (.error (.resolution (.sourceNotFound path))))
  else match repo.resolve ws path with
    | .error fault => (runner, idle ws (.error (.resolution fault)))
    | .ok (.skip reason) =>
      (runner, ⟨.ok (.skipped reason), reason.message ++ ['\n'], ws, [], []⟩)
    | .ok (.targets targets) =>
      match SourceFile.read ws repo.root path with
      | .error fault => (runner, idle ws (.error (.file fault)))
      | .ok source => runTargets request ws runner platform source targets

def run (request : AnalysisRequest) (repo : Repository) (ws : Workspace) (runner : Runner)
    (platform : Platform) : Runner × Analysis :=
  if request.timeout.seconds? = none then (runner, idle ws (.error .timeoutTooLong))
  else runTimed request repo ws runner platform

end Analysis

end FileCoverage

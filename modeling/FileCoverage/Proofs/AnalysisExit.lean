import FileCoverage.Analysis

/-!
# How an analysis ends

An analysis has one way out for each of its steps: the time is too long to be told, the source file
is not found, not resolved, skipped or not readable, the run of its targets is aborted, or the
results are merged and the report is written.
-/

namespace FileCoverage.Analysis

variable {request : AnalysisRequest} {repo : Repository} {ws : Workspace} {runner : Runner}
  {platform : Platform}

/-- The source file is found and resolved to targets. -/
structure HasTargets (request : AnalysisRequest) (repo : Repository) (ws : Workspace)
    (targets : List TestTarget) : Prop where
  timed : request.timeout.seconds? ≠ none
  found : repo.hasFile ws (RepositoryPath.normalize request.source) = true
  resolved : repo.resolve ws (RepositoryPath.normalize request.source) = .ok (.targets targets)

/-- The targets of the source file are run. -/
structure RunsTargets (request : AnalysisRequest) (repo : Repository) (ws : Workspace)
    (source : SourceFile) (targets : List TestTarget) : Prop
    extends HasTargets request repo ws targets where
  read : SourceFile.read ws repo.root (RepositoryPath.normalize request.source) = .ok source

/-- The ways out of an analysis, with what it has come to and done by then. -/
inductive Exits (request : AnalysisRequest) (repo : Repository) (ws : Workspace) (runner : Runner)
    (platform : Platform) : Analysis → Prop where
  | timeoutTooLong (tooLong : request.timeout.seconds? = none) :
      Exits request repo ws runner platform (idle ws (.error .timeoutTooLong))
  | notFound (missing : repo.hasFile ws (RepositoryPath.normalize request.source) = false) :
      Exits request repo ws runner platform (idle ws (.error (.resolution
        (.sourceNotFound (RepositoryPath.normalize request.source)))))
  | unresolved {fault : ResolutionFault}
      (failed : repo.resolve ws (RepositoryPath.normalize request.source) = .error fault) :
      Exits request repo ws runner platform (idle ws (.error (.resolution fault)))
  | skipped {reason : SkipReason}
      (skip : repo.resolve ws (RepositoryPath.normalize request.source) = .ok (.skip reason)) :
      Exits request repo ws runner platform
        ⟨.ok (.skipped reason), reason.message ++ ['\n'], ws, [], []⟩
  | unreadable {targets : List TestTarget} {fault : FileFault}
      (reached : HasTargets request repo ws targets)
      (failed : SourceFile.read ws repo.root (RepositoryPath.normalize request.source) =
        .error fault) :
      Exits request repo ws runner platform (idle ws (.error (.file fault)))
  | aborted {source : SourceFile} {targets : List TestTarget} {abort : Abort}
      {launches : List Launch} {events : List Event}
      (reached : RunsTargets request repo ws source targets)
      (failed : (runner.run ⟨ws, platform, source, request.timeout⟩ targets).2.outcome =
        .error abort) :
      Exits request repo ws runner platform ⟨.error (.aborted abort), [], ws, launches, events⟩
  | concluded {source : SourceFile} {targets : List TestTarget}
      {results : KeyedList TestTarget RunResult} {launches : List Launch} {events : List Event}
      (reached : RunsTargets request repo ws source targets)
      (finished : (runner.run ⟨ws, platform, source, request.timeout⟩ targets).2.outcome =
        .ok results) :
      Exits request repo ws runner platform
        ⟨(conclude request ws platform.storage source results).1, [],
          (conclude request ws platform.storage source results).2, launches, events⟩

theorem runTargets_exits {source : SourceFile} {targets : List TestTarget}
    (reached : RunsTargets request repo ws source targets) (runner : Runner)
    (platform : Platform) :
    Exits request repo ws runner platform
      (runTargets request ws runner platform source targets).2 := by
  rw [runTargets]
  cases finished : (runner.run ⟨ws, platform, source, request.timeout⟩ targets).2.outcome with
  | error abort =>
      simp only [finished]
      exact .aborted reached finished
  | ok results =>
      simp only [finished]
      exact .concluded reached finished

/-- Every analysis takes one of the ways out. -/
theorem run_exits (request : AnalysisRequest) (repo : Repository) (ws : Workspace)
    (runner : Runner) (platform : Platform) :
    Exits request repo ws runner platform (run request repo ws runner platform).2 := by
  rw [run]
  split
  · next tooLong => exact .timeoutTooLong tooLong
  · next timed =>
      rw [runTimed.eq_def]
      simp only
      split
      · next missing => exact .notFound (by simpa using missing)
      · next found =>
          split
          · next fault failed => exact .unresolved failed
          · next reason skip => exact .skipped skip
          · next targets resolved =>
              have reached : HasTargets request repo ws targets :=
                ⟨timed, by simpa using found, resolved⟩
              split
              · next fault failed => exact .unreadable reached failed
              · next source read => exact runTargets_exits ⟨reached, read⟩ runner platform

end FileCoverage.Analysis

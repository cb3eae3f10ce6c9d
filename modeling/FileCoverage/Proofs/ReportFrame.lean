import FileCoverage.Proofs.FileFrame
import FileCoverage.Proofs.LineUnion

/-!
# An analysis changes nothing but its report

Only the last step of an analysis writes, and only to one file.  It opens that file and so empties
it, and then writes the report; a device that is full or an interrupt may stop it in between, and
then a beginning of the report is all that is left of the file.  Whatever stops the analysis before
leaves every file as it was, though a folder for the report may have been made.  No process is
started before the source file has been found, resolved and read.
-/

namespace FileCoverage

namespace Analysis

variable {request : AnalysisRequest} {repo : Repository} {ws : Workspace} {runner : Runner}
  {platform : Platform} {done : Analysis}

theorem writes_writeReport (request : AnalysisRequest) (ws : Workspace) (storage : Storage)
    (coverage : Coverage) :
    ws.Writes request.output (Utf8.encode (Report.render coverage request.format))
      (writeReport request ws storage coverage) :=
  ws.writes_writeText storage request.output _

/-- What an analysis does, by what it comes to. -/
inductive Effect (request : AnalysisRequest) (ws : Workspace) (done : Analysis) : Prop where
  /-- It ends before processes are started. -/
  | idle (files : ws.top.SameFiles done.workspace.top) (launches : done.launches = [])
      (other : ∀ coverage output failed, done.outcome ≠ .ok (.reported coverage output failed))
  /-- It ends with a fault after processes have been started. -/
  | stopped {fault : AnalysisFault} (ended : done.outcome = .error fault)
      (other : ∀ unresolved, fault ≠ .resolution unresolved)
      (files : ws.top.SameFiles done.workspace.top)
  /-- It ends while the report is being written. -/
  | torn {fault : WriteFault} {coverage : Coverage} {count : Nat} {place : List Text}
      (ended : done.outcome = .error (.ofWrite fault)) (late : fault.IsLate)
      (files : ws.HasWritten request.output
        ((Utf8.encode (Report.render coverage request.format)).take count) done.workspace place)
  | reported {coverage : Coverage} {failed : List RunFailure} {place : List Text}
      (ended : done.outcome = .ok (.reported coverage request.output failed))
      (files : ws.HasWritten request.output
        (Utf8.encode (Report.render coverage request.format)) done.workspace place)

theorem ofWrite_ne_resolution (fault : WriteFault) (unresolved : ResolutionFault) :
    AnalysisFault.ofWrite fault ≠ .resolution unresolved := by
  cases fault with
  | file _ => exact nofun
  | storage _ => exact nofun
  | interrupted => exact nofun

theorem Exits.effect (exits : Exits request repo ws runner platform done) :
    Effect request ws done := by
  cases exits with
  | aborted reached failed => exact .stopped rfl (by simp) (.refl _)
  | @concluded source targets results launches events reached finished =>
      have alone := (Runner.runCompleting_eq_ok_iff (.refl targets) results).1 finished
      rcases conclude_cases request ws platform.storage alone rfl with
        ⟨path, failed, ended⟩ | ⟨coverage, _, _, ⟨after, fault, stops, ended⟩ |
          ⟨written, wrote, ended⟩⟩
      · rw [ended]
        exact .stopped rfl (by simp) (.refl _)
      · have writes := writes_writeReport request ws platform.storage coverage
        rw [stops] at writes
        rw [ended]
        cases writes with
        | refused files => exact .stopped rfl (ofWrite_ne_resolution _) files
        | stopped late has => exact .torn rfl late has
      · have writes := writes_writeReport request ws platform.storage coverage
        rw [wrote] at writes
        rw [ended]
        cases writes with
        | written has => exact .reported rfl has
  | _ => exact .idle (.refl _) rfl (by simp [Analysis.idle])

/--
An analysis that ends with a fault or is skipped leaves every file as it was, unless the writing of
the report has been stopped: then the file that its output path leads to holds a beginning of the
report, and all others are as they were.  An analysis that reports changes that file to the report
of the coverage that it comes to, and no other.  No process has been started if the source file is
not resolved to targets.
-/
theorem run_writes_only_report (request : AnalysisRequest) (repo : Repository) (ws : Workspace)
    (runner : Runner) (platform : Platform) {done : Analysis}
    (ended : (run request repo ws runner platform).2 = done) :
    (∀ fault, done.outcome = .error fault → ws.top.SameFiles done.workspace.top ∨
      ∃ late : WriteFault, late.IsLate ∧ fault = .ofWrite late ∧
        ∃ coverage count place, ws.HasWritten request.output
          ((Utf8.encode (Report.render coverage request.format)).take count)
          done.workspace place) ∧
    (∀ reason, done.outcome = .ok (.skipped reason) → ws.top.SameFiles done.workspace.top) ∧
    (∀ coverage output failed, done.outcome = .ok (.reported coverage output failed) →
      output = request.output ∧
        ∃ place, ws.HasWritten output (Utf8.encode (Report.render coverage request.format))
          done.workspace place) ∧
    ((∃ fault, done.outcome = .error (.resolution fault)) ∨
      (∃ reason, done.outcome = .ok (.skipped reason)) → done.launches = []) := by
  have exits := run_exits request repo ws runner platform
  rw [ended] at exits
  cases exits.effect with
  | idle files launches other =>
      refine ⟨fun _ _ => .inl files, fun _ _ => files, ?_, fun _ => launches⟩
      intro coverage output failed reported
      exact absurd reported (other coverage output failed)
  | stopped ended other files =>
      refine ⟨fun _ _ => .inl files, fun _ _ => files, ?_, ?_⟩
      · intro coverage output failed reported
        cases ended.symm.trans reported
      · rintro (⟨fault, unresolved⟩ | ⟨reason, skipped⟩)
        · obtain rfl := Except.error.inj (ended.symm.trans unresolved)
          exact absurd rfl (other fault)
        · cases ended.symm.trans skipped
  | @torn late coverage count place ended isLate files =>
      refine ⟨?_, ?_, ?_, ?_⟩
      · intro fault stopped
        obtain rfl := Except.error.inj (ended.symm.trans stopped)
        exact .inr ⟨late, isLate, rfl, coverage, count, place, files⟩
      · intro reason skipped
        cases ended.symm.trans skipped
      · intro coverage output failed reported
        cases ended.symm.trans reported
      · rintro (⟨fault, unresolved⟩ | ⟨reason, skipped⟩)
        · exact absurd (Except.error.inj (ended.symm.trans unresolved)) (ofWrite_ne_resolution _ _)
        · cases ended.symm.trans skipped
  | reported reported files =>
      refine ⟨?_, ?_, ?_, ?_⟩
      · intro fault stopped
        cases reported.symm.trans stopped
      · intro reason skipped
        cases reported.symm.trans skipped
      · intro coverage output failed same
        cases reported.symm.trans same
        exact ⟨rfl, _, files⟩
      · rintro (⟨fault, unresolved⟩ | ⟨reason, skipped⟩)
        · cases reported.symm.trans unresolved
        · cases reported.symm.trans skipped

end Analysis

namespace Sample

/-- A request for a report below a folder that has to be made, through a file that is in the way. -/
def obstructed : AnalysisRequest :=
  ⟨"main/A.kt", .markdown, ⟨.root, ["made", "..", "main", "A.kt", "report"]⟩, .whole 60⟩

/-- The project with an earlier report. -/
def reportedBefore : Workspace :=
  ⟨.file "report" [66] (workspace tracefile).top, []⟩

/-- A platform whose device is full after so many bytes. -/
def fullAfter (count : Nat) : Platform :=
  { platform with storage := fun _ _ => .stopped count .noSpace }

end Sample

open Sample in
/-- One report is written; the other leaves a folder behind, and every file as it was. -/
theorem run_writes_only_report_of_obstacle :
    (∃ coverage place, Workspace.HasWritten (workspace tracefile) request.output
      (Utf8.encode (Report.render coverage .markdown))
      (Analysis.run request repository (workspace tracefile) runner platform).2.workspace place) ∧
    (workspace tracefile).top.SameFiles
      (Analysis.run obstructed repository (workspace tracefile) runner platform).2.workspace.top ∧
    (Analysis.run obstructed repository (workspace tracefile) runner platform).2.workspace.top.at?
      ["made"] = some (.folder .empty) := by
  have reports : ∃ coverage output failed,
      (Analysis.run request repository (workspace tracefile) runner platform).2.outcome =
        .ok (.reported coverage output failed) := ⟨_, _, _, rfl⟩
  have stops : ∃ fault : FileFault,
      (Analysis.run obstructed repository (workspace tracefile) runner platform).2.outcome =
        .error (.file fault) := ⟨_, rfl⟩
  obtain ⟨coverage, output, failed, reported⟩ := reports
  obtain ⟨fault, stopped⟩ := stops
  obtain ⟨rfl, place, written⟩ :=
    (Analysis.run_writes_only_report _ _ _ runner platform rfl).2.2.1 coverage output failed
      reported
  refine ⟨⟨coverage, place, written⟩, ?_, by rfl⟩
  rcases (Analysis.run_writes_only_report _ _ _ runner platform rfl).1 _ stopped with
    same | ⟨late, isLate, torn, _⟩
  · exact same
  · -- A file that is in the way has stopped it before the report is opened.
    cases late with
    | file _ => cases isLate
    | storage _ => cases torn
    | interrupted => cases torn

open Sample in
/-- A device that is full when the report is to be written leaves nothing of the earlier one. -/
theorem full_device_empties_report :
    (Analysis.run request repository reportedBefore runner (fullAfter 0)).2.outcome =
      .error (.storage .noSpace) ∧
    reportedBefore.top.at? ["report"] = some (.file [66]) ∧
    (Analysis.run request repository reportedBefore runner (fullAfter 0)).2.workspace.top.at?
      ["report"] = some (.file []) :=
  ⟨rfl, rfl, rfl⟩

end FileCoverage

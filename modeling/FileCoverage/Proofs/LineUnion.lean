import FileCoverage.Proofs.AnalysisExit
import FileCoverage.Proofs.LineEvidence
import FileCoverage.Proofs.TargetResult

/-!
# The report of an analysis is the union of what its targets say

Every target that gives coverage gives one state per line of the source file, so the coverages of a
run always fit and can be merged.  A line is covered if the tracefile of one of these targets has a
record of the source file in which the line has a positive count; else it is not covered if one of
them lists it; else nothing is known about it.
-/

namespace FileCoverage

namespace Runner

variable {r : Runner} {context : RunContext} {targets : List TestTarget} {target : TestTarget}
  {results : KeyedList TestTarget RunResult}

/-- The tracefile of a target has a record of the source file that lists the line with a count. -/
def Gives (r : Runner) (context : RunContext) (target : TestTarget) (line : Int) (count : Nat) :
    Prop :=
  ∃ output path records record, context.behaviour target = .exits 0 output ∧
    Artifact.find? context.workspace r.root target output = some path ∧
    Lcov.read context.workspace path = .ok records ∧
    record ∈ Lcov.matching records context.source.path ∧ record.hits.get? line = some count

/-- A target that has ended in coverage lists the line with a count. -/
def Lists (r : Runner) (context : RunContext) (results : KeyedList TestTarget RunResult)
    (line : Int) (count : Nat) : Prop :=
  ∃ target coverage, (target, .ok coverage) ∈ results ∧ r.Gives context target line count

/-- Each line has the state that the targets with coverage give it together. -/
structure IsUnion (r : Runner) (context : RunContext) (results : KeyedList TestTarget RunResult)
    (states : List LineState) : Prop where
  length : states.length = context.source.lines.length
  covered : ∀ i < context.source.lines.length, states[i]? = some .covered ↔
    ∃ count, 0 < count ∧ r.Lists context results ((i : Int) + 1) count
  notCovered : ∀ i < context.source.lines.length, states[i]? = some .notCovered ↔
    (¬ ∃ count, 0 < count ∧ r.Lists context results ((i : Int) + 1) count) ∧
      ∃ count, r.Lists context results ((i : Int) + 1) count
  unknown : ∀ i < context.source.lines.length, states[i]? = some .unknown ↔
    ¬ ∃ count, r.Lists context results ((i : Int) + 1) count

/-- Whether processes are refused has no part in what tracefiles say. -/
theorem IsUnion.of_reopen {states : List LineState} (h : r.reopen.IsUnion context results states) :
    r.IsUnion context results states :=
  ⟨h.length, h.covered, h.notCovered, h.unknown⟩

theorem gives_iff {output : Text} {path : Path} {records : List Lcov.Record} {line : Int}
    {count : Nat} (exits : context.behaviour target = .exits 0 output)
    (found : Artifact.find? context.workspace r.root target output = some path)
    (read : Lcov.read context.workspace path = .ok records) :
    r.Gives context target line count ↔
      ∃ record ∈ Lcov.matching records context.source.path,
        record.hits.get? line = some count := by
  constructor
  · intro gives
    rcases gives with ⟨output', path', records', record, exits', found', read', mem, listed⟩
    obtain ⟨_, rfl⟩ := Behaviour.exits.inj (exits.symm.trans exits')
    obtain rfl := Option.some.inj (found.symm.trans found')
    obtain rfl := Except.ok.inj (read.symm.trans read')
    exact ⟨record, mem, listed⟩
  · intro gives
    rcases gives with ⟨record, mem, listed⟩
    exact ⟨output, path, records, record, exits, found, read, mem, listed⟩

theorem length_states_of_runTarget {coverage : TargetCoverage} (accepts : r.refuses = false)
    (ended : (r.runTarget context target).outcome = .ok (.ok coverage)) :
    coverage.states.length = context.source.lines.length := by
  obtain ⟨_, _, _, _, record, _, _, _, _, rfl⟩ := (runTarget_eq_ok_iff accepts).1 ended
  exact record.hits.length_classify _

/-- The state of a line is what the matching records of the target say about it together. -/
theorem exists_state_of_runTarget {coverage : TargetCoverage} {i : Nat}
    (accepts : r.refuses = false)
    (ended : (r.runTarget context target).outcome = .ok (.ok coverage))
    (lt : i < context.source.lines.length) :
    ∃ state, coverage.states[i]? = some state ∧
      (state = .covered ↔ ∃ count, 0 < count ∧ r.Gives context target ((i : Int) + 1) count) ∧
      (state = .unknown ↔ ∀ count, ¬ r.Gives context target ((i : Int) + 1) count) := by
  obtain ⟨_, output, path, records, record, exits, found, read, combined, rfl⟩ :=
    (runTarget_eq_ok_iff accepts).1 ended
  refine ⟨_, record.hits.getElem?_classify lt, ?_, ?_⟩
  · rw [LineState.ofCount_eq_covered_iff]
    refine (Lcov.combine?_runs_iff combined _).trans ?_
    simp only [gives_iff exits found read]
    constructor
    · intro runs
      rcases runs with ⟨found, mem, count, listed, positive⟩
      exact ⟨count, positive, found, mem, listed⟩
    · intro given
      rcases given with ⟨count, positive, found, mem, listed⟩
      exact ⟨found, mem, count, listed, positive⟩
  · rw [LineState.ofCount_eq_unknown_iff, Lcov.combine?_get?_eq_none_iff combined]
    simp only [gives_iff exits found read]
    constructor
    · rintro unlisted count ⟨found, mem, listed⟩
      rw [unlisted found mem] at listed
      cases listed
    · intro unlisted found mem
      cases listed : found.hits.get? ((i : Int) + 1) with
      | none => rfl
      | some count => exact absurd ⟨found, mem, listed⟩ (unlisted count)

end Runner

/-! ### Merging the coverages of a run -/

theorem mem_successes_iff {results : KeyedList TestTarget RunResult} {coverage : TargetCoverage} :
    coverage ∈ successes results ↔ ∃ target, (target, .ok coverage) ∈ results := by
  rw [successes, List.mem_filterMap]
  constructor
  · intro listed
    rcases listed with ⟨⟨target, result⟩, mem, eq⟩
    cases result with
    | error failure => cases eq
    | ok coverage' =>
        obtain rfl := Option.some.inj eq
        exact ⟨target, mem⟩
  · intro ended
    rcases ended with ⟨target, mem⟩
    exact ⟨_, mem, rfl⟩

namespace Runner.Alone

variable {r : Runner} {context : RunContext} {targets : List TestTarget}
  {results : KeyedList TestTarget RunResult} {i : Nat}

theorem fits (h : r.Alone context targets results) (accepts : r.refuses = false) :
    ∀ coverage ∈ successes results, coverage.states.length = context.source.lines.length := by
  intro coverage mem
  obtain ⟨target, mem⟩ := mem_successes_iff.1 mem
  exact length_states_of_runTarget accepts (h.outcome _ mem)

theorem mergedStates_eq_covered_iff (h : r.Alone context targets results)
    (accepts : r.refuses = false) (lt : i < context.source.lines.length) :
    (Coverage.mergedStates (successes results) context.source.lines.length)[i]? = some .covered ↔
      ∃ count, 0 < count ∧ r.Lists context results ((i : Int) + 1) count := by
  rw [Coverage.getElem?_mergedStates (h.fits accepts) lt, Option.some_inj,
    LineState.merge_eq_covered_iff, List.mem_map]
  constructor
  · intro covered_by
    rcases covered_by with ⟨coverage, mem, covered⟩
    obtain ⟨target, mem⟩ := mem_successes_iff.1 mem
    obtain ⟨state, at_line, covered_iff, _⟩ :=
      exists_state_of_runTarget accepts (h.outcome _ mem) lt
    rw [at_line] at covered
    obtain ⟨count, positive, gives⟩ := covered_iff.1 covered
    exact ⟨count, positive, target, coverage, mem, gives⟩
  · intro listed
    rcases listed with ⟨count, positive, target, coverage, mem, gives⟩
    obtain ⟨state, at_line, covered_iff, _⟩ :=
      exists_state_of_runTarget accepts (h.outcome _ mem) lt
    refine ⟨coverage, mem_successes_iff.2 ⟨target, mem⟩, ?_⟩
    rw [at_line]
    exact covered_iff.2 ⟨count, positive, gives⟩

theorem mergedStates_eq_unknown_iff (h : r.Alone context targets results)
    (accepts : r.refuses = false) (lt : i < context.source.lines.length) :
    (Coverage.mergedStates (successes results) context.source.lines.length)[i]? = some .unknown ↔
      ∀ count, ¬ r.Lists context results ((i : Int) + 1) count := by
  rw [Coverage.getElem?_mergedStates (h.fits accepts) lt, Option.some_inj,
    LineState.merge_eq_unknown_iff, List.forall_mem_map]
  constructor
  · rintro unknown count ⟨target, coverage, mem, gives⟩
    obtain ⟨state, at_line, _, unknown_iff⟩ :=
      exists_state_of_runTarget accepts (h.outcome _ mem) lt
    have unknown := unknown coverage (mem_successes_iff.2 ⟨target, mem⟩)
    rw [at_line] at unknown
    exact unknown_iff.1 unknown count gives
  · intro unlisted coverage mem
    obtain ⟨target, mem⟩ := mem_successes_iff.1 mem
    obtain ⟨state, at_line, _, unknown_iff⟩ :=
      exists_state_of_runTarget accepts (h.outcome _ mem) lt
    rw [at_line]
    exact unknown_iff.2 fun count gives => unlisted count ⟨target, coverage, mem, gives⟩

theorem mergedStates_eq_notCovered_iff (h : r.Alone context targets results)
    (accepts : r.refuses = false) (lt : i < context.source.lines.length) :
    (Coverage.mergedStates (successes results) context.source.lines.length)[i]? =
        some .notCovered ↔
      (¬ ∃ count, 0 < count ∧ r.Lists context results ((i : Int) + 1) count) ∧
        ∃ count, r.Lists context results ((i : Int) + 1) count := by
  have covered := h.mergedStates_eq_covered_iff accepts lt
  have unknown := h.mergedStates_eq_unknown_iff accepts lt
  rw [Coverage.getElem?_mergedStates (h.fits accepts) lt, Option.some_inj] at covered unknown ⊢
  rw [LineState.eq_notCovered_iff, Ne, Ne, covered, unknown, not_forall_not]

theorem isUnion (h : r.Alone context targets results) (accepts : r.refuses = false) :
    r.IsUnion context results
      (Coverage.mergedStates (successes results) context.source.lines.length) where
  length := Coverage.length_mergedStates (h.fits accepts)
  covered := fun _ lt => h.mergedStates_eq_covered_iff accepts lt
  notCovered := fun _ lt => h.mergedStates_eq_notCovered_iff accepts lt
  unknown := fun _ lt => (h.mergedStates_eq_unknown_iff accepts lt).trans not_exists.symm

end Runner.Alone

theorem AnalysisFault.ofWrite_ne_length (fault : WriteFault) (length : LengthFault) :
    ofWrite fault ≠ .length length := by
  cases fault with
  | file _ => exact nofun
  | storage _ => exact nofun
  | interrupted => exact nofun

namespace Analysis

variable {request : AnalysisRequest} {repo : Repository} {ws : Workspace} {runner : Runner}
  {platform : Platform}

/-- The results of a run can be merged unless there is no coverage among them. -/
theorem mergeResults_cases {r : Runner} {context : RunContext} {targets : List TestTarget}
    {results : KeyedList TestTarget RunResult} (request : AnalysisRequest)
    (h : r.Alone context targets results) (accepts : r.refuses = false) :
    (∃ path failed,
        mergeResults request context.source results = .error (.noCoverage path failed)) ∨
      ∃ coverage, mergeResults request context.source results = .ok coverage ∧
        coverage.source = context.source ∧ coverage.states =
          Coverage.mergedStates (successes results) context.source.lines.length := by
  rw [mergeResults.eq_def]
  split
  · exact .inl ⟨_, _, rfl⟩
  · obtain ⟨coverage, merged, source, states⟩ := Coverage.merge_of_fits (h.fits accepts)
    exact .inr ⟨coverage, by rw [merged], source, states⟩

/-- An analysis ends before the results of its targets are merged, or with what they come to. -/
theorem run_cases (request : AnalysisRequest) (repo : Repository) (ws : Workspace)
    (runner : Runner) (platform : Platform) :
    (∃ fault, (run request repo ws runner platform).2.outcome = .error fault ∧
        ∀ length, fault ≠ .length length) ∨
      (∃ reason, (run request repo ws runner platform).2.outcome = .ok (.skipped reason)) ∨
      ∃ source targets results,
        SourceFile.read ws repo.root (RepositoryPath.normalize request.source) = .ok source ∧
        repo.resolve ws (RepositoryPath.normalize request.source) = .ok (.targets targets) ∧
        (runner.run ⟨ws, platform, source, request.timeout⟩ targets).2.outcome = .ok results ∧
        (run request repo ws runner platform).2.outcome =
          (conclude request ws platform.storage source results).1 := by
  have exits := run_exits request repo ws runner platform
  generalize (run request repo ws runner platform).2 = done at exits ⊢
  cases exits with
  | skipped skip => exact .inr (.inl ⟨_, rfl⟩)
  | concluded reached finished =>
      exact .inr (.inr ⟨_, _, _, reached.read, reached.resolved, finished, rfl⟩)
  | _ => exact .inl ⟨_, rfl, by simp⟩

/-- Results are merged unless there is no coverage, and the report is written or cannot be. -/
theorem conclude_cases {r : Runner} {context : RunContext} {targets : List TestTarget}
    {results : KeyedList TestTarget RunResult} (request : AnalysisRequest) (ws : Workspace)
    (storage : Storage) (h : r.Alone context targets results) (accepts : r.refuses = false) :
    (∃ path failed, conclude request ws storage context.source results =
        (.error (.noCoverage path failed), ws)) ∨
      ∃ coverage, coverage.source = context.source ∧ coverage.states =
          Coverage.mergedStates (successes results) context.source.lines.length ∧
        ((∃ stopped fault, writeReport request ws storage coverage = (stopped, some fault) ∧
            conclude request ws storage context.source results =
              (.error (.ofWrite fault), stopped)) ∨
          ∃ written, writeReport request ws storage coverage = (written, none) ∧
            conclude request ws storage context.source results =
              (.ok (.reported coverage request.output (failures results)), written)) := by
  rw [conclude]
  rcases mergeResults_cases request h accepts with
    ⟨path, failed, empty⟩ | ⟨coverage, merged, source, states⟩
  · rw [empty]
    exact .inl ⟨path, failed, rfl⟩
  · rw [merged]
    refine .inr ⟨coverage, source, states, ?_⟩
    rcases wrote : writeReport request ws storage coverage with ⟨after, _ | fault⟩
    · exact .inr ⟨after, rfl, by simp only [wrote]⟩
    · exact .inl ⟨after, fault, rfl, by simp only [wrote]⟩

/--
An analysis never finds that states and lines differ in number.  If it reports, then each line of
the source file has the one state that the tracefiles of the targets with coverage give it.
-/
theorem run_line_union (request : AnalysisRequest) (repo : Repository) (ws : Workspace)
    (runner : Runner) (platform : Platform) :
    (∀ fault, (run request repo ws runner platform).2.outcome ≠ .error (.length fault)) ∧
    ∀ coverage output failed,
      (run request repo ws runner platform).2.outcome = .ok (.reported coverage output failed) →
      ∃ source targets results,
        SourceFile.read ws repo.root (RepositoryPath.normalize request.source) = .ok source ∧
        repo.resolve ws (RepositoryPath.normalize request.source) = .ok (.targets targets) ∧
        (runner.run ⟨ws, platform, source, request.timeout⟩ targets).2.outcome = .ok results ∧
        KeyedList.keys results = targets.eraseDups ∧
        coverage.source = source ∧
        runner.IsUnion ⟨ws, platform, source, request.timeout⟩ results coverage.states := by
  -- Only a run whose targets all came to results gets as far as comparing lengths.
  rcases run_cases request repo ws runner platform with
    ⟨fault, stopped, other⟩ | ⟨reason, skipped⟩ |
    ⟨source, targets, results, read, resolved, finished, eq⟩
  · rw [stopped]
    refine ⟨fun length eq => other length (Except.error.inj eq), ?_⟩
    intro coverage output failed reported
    cases reported
  · rw [skipped]
    refine ⟨by simp, ?_⟩
    intro coverage output failed reported
    cases reported
  · have alone := (Runner.runCompleting_eq_ok_iff (.refl targets) results).1 finished
    rcases conclude_cases request ws platform.storage alone rfl with
      ⟨path, failed, stopped⟩ | ⟨merged, same, states, ⟨after, fault, _, stopped⟩ |
        ⟨written, _, reported⟩⟩
    · rw [eq, stopped]
      refine ⟨by simp, ?_⟩
      intro coverage output failed reported
      cases reported
    · rw [eq, stopped]
      refine ⟨fun length same => AnalysisFault.ofWrite_ne_length fault length
        (Except.error.inj same), ?_⟩
      intro coverage output failed reported
      cases reported
    · rw [eq, reported]
      refine ⟨by simp, ?_⟩
      intro coverage output failed reported
      cases reported
      refine ⟨source, targets, results, read, resolved, finished, alone.keys, same, ?_⟩
      rw [states]
      exact (alone.isUnion rfl).of_reopen

end Analysis

def Sample.request : AnalysisRequest := ⟨"./main/A.kt", .markdown, ⟨.root, ["report"]⟩, .whole 60⟩

def Sample.repository : Repository := ⟨⟨.root, []⟩, .empty, Layout.defaultRules⟩

open Sample in
/-- One target fails; the first line is covered by the other. -/
theorem run_line_union_of_failing_sibling :
    ∃ coverage output failed,
      (Analysis.run request repository (workspace tracefile) runner platform).2.outcome =
          .ok (.reported coverage output failed) ∧
        coverage.states[0]? = some .covered := by
  have reports : ∃ coverage output failed,
      (Analysis.run request repository (workspace tracefile) runner platform).2.outcome =
        .ok (.reported coverage output failed) := ⟨_, _, _, rfl⟩
  obtain ⟨coverage, output, failed, reported⟩ := reports
  obtain ⟨source, targets, results, read, resolved, finished, _, _, union⟩ :=
    (Analysis.run_line_union _ _ _ runner platform).2 coverage output failed reported
  obtain rfl := Except.ok.inj read
  obtain rfl := Resolution.targets.inj (Except.ok.inj resolved)
  obtain rfl := Except.ok.inj finished
  refine ⟨coverage, output, failed, reported, (union.covered 0 (by decide)).2 ?_⟩
  refine ⟨1, by decide, passing, _, List.mem_cons_self, ?_⟩
  refine ⟨"coverage.dat", _, _, _, rfl, rfl, rfl, List.mem_cons_self, ?_⟩
  decide +kernel

end FileCoverage

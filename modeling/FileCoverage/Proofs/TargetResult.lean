import FileCoverage.Proofs.RunOrder
import FileCoverage.Proofs.Tracefile
import FileCoverage.Proofs.WaitingTime

/-!
# What comes of a target

A target gives coverage if its process ends well and leaves a tracefile with a record of the source
file.  It comes to a failure in every other case but four: its process interrupts the run, it cannot
be waited for, it runs out of a time that cannot be told, or its tracefile has an infinite count in
an open record.  Those four end the run, and with it the results of all other targets.
-/

namespace FileCoverage

theorem Workspace.isFile_iff (ws : Workspace) (p : Path) :
    ws.isFile p = true ↔ ∃ t, ws.readTextLossy p = .ok t := by
  rw [isFile, readTextLossy, readBytes]
  by_cases nul : hasNul p = true
  · simp [entry, nul, bind, Except.bind]
  · rw [if_neg nul]
    split
    · next content found => simp [found, bind, Except.bind, pure, Except.pure]
    · next other =>
        refine iff_of_false (by simp) ?_
        intro readable
        rcases readable with ⟨t, read⟩
        split at read
        · next content found => exact other content found
        · cases read
        · cases read

namespace Lcov

theorem read_eq_ok_iff {ws : Workspace} {p : Path} {records : List Record} :
    read ws p = .ok records ↔ ∃ t, ws.readTextLossy p = .ok t ∧ parse t = .ok records := by
  rw [read]
  cases text : ws.readTextLossy p with
  | error fault => simp
  | ok t =>
      cases parsed : parse t with
      | error fault => simp [parsed]
      | ok found => simp [parsed]

theorem exists_read_eq_ok_iff {ws : Workspace} {p : Path} (file : ws.isFile p = true) :
    (∃ records, read ws p = .ok records) ↔
      ∀ t, ws.readTextLossy p = .ok t → ¬ HasInfiniteCount t := by
  obtain ⟨t, text⟩ := (ws.isFile_iff p).1 file
  constructor
  · rintro ⟨records, found⟩ t' text'
    obtain ⟨_, text'', parsed⟩ := read_eq_ok_iff.1 found
    rw [text'] at text''
    obtain rfl := Except.ok.inj text''
    exact (exists_parse_eq_ok_iff t').1 ⟨records, parsed⟩
  · intro finite
    obtain ⟨records, parsed⟩ := (exists_parse_eq_ok_iff t).2 (finite t text)
    exact ⟨records, read_eq_ok_iff.2 ⟨t, text, parsed⟩⟩

end Lcov

namespace Runner

variable {r : Runner} {context : RunContext} {target : TestTarget}

/-- The process of a target runs out of time. -/
def RunsOutOfTime (context : RunContext) (target : TestTarget) (hang : Hang) : Prop :=
  context.behaviour target = .hangs hang ∨ context.behaviour target = .blocks hang

theorem runsOutOfTime_unique {hang hang' : Hang} (runs : RunsOutOfTime context target hang)
    (runs' : RunsOutOfTime context target hang') : hang' = hang := by
  rcases runs with hangs | blocks
  · rcases runs' with hangs' | blocks'
    · exact Behaviour.hangs.inj (hangs'.symm.trans hangs)
    · cases blocks'.symm.trans hangs
  · rcases runs' with hangs' | blocks'
    · cases hangs'.symm.trans blocks
    · exact Behaviour.blocks.inj (blocks'.symm.trans blocks)

theorem RunsOutOfTime.canStart {hang : Hang} (runs : RunsOutOfTime context target hang) :
    canStart context target = true := by
  rcases runs with hangs | blocks
  · rw [Runner.canStart, hangs]
  · rw [Runner.canStart, blocks]

theorem readArtifact_eq_ok_iff {output : Text} {path : Path} {coverage : TargetCoverage} :
    (readArtifact context target output path).outcome = .ok (.ok coverage) ↔
      ∃ records record, Lcov.read context.workspace path = .ok records ∧
        Lcov.find? records context.source.path = some record ∧
        coverage = ⟨target, record.hits.classify context.source.lines.length⟩ := by
  rw [readArtifact]
  cases read : Lcov.read context.workspace path with
  | error fault => simp
  | ok records =>
      cases found : Lcov.find? records context.source.path with
      | none => simp [found]
      | some record => simp [found, eq_comm]

theorem collect_eq_ok_iff {output : Text} {coverage : TargetCoverage} :
    (r.collect context target output).outcome = .ok (.ok coverage) ↔
      ∃ path records record,
        Artifact.find? context.workspace r.root target output = some path ∧
        Lcov.read context.workspace path = .ok records ∧
        Lcov.find? records context.source.path = some record ∧
        coverage = ⟨target, record.hits.classify context.source.lines.length⟩ := by
  rw [collect]
  cases found : Artifact.find? context.workspace r.root target output with
  | none => simp
  | some path =>
      by_cases file : context.workspace.isFile path = true
      · simp [file, readArtifact_eq_ok_iff]
      · simp only [file]
        refine iff_of_false (by simp) ?_
        intro collected
        rcases collected with ⟨path', records, record, eq, read, _⟩
        obtain rfl := Option.some.inj eq
        obtain ⟨t, text, _⟩ := Lcov.read_eq_ok_iff.1 read
        exact file ((context.workspace.isFile_iff path).2 ⟨t, text⟩)

theorem timedOut_eq_ok {hang : Hang} {result : RunResult}
    (returned : (r.timedOut context target hang).outcome = .ok result) :
    ∃ seconds, context.timeout.seconds? = some seconds ∧
      result = .error (.withOutput target (.timedOut seconds) hang.collected) := by
  rw [timedOut] at returned
  split at returned
  · cases returned
  · dsimp only at returned
    split at returned
    · cases returned
    · next seconds told => exact ⟨seconds, told, (Except.ok.inj returned).symm⟩

theorem timedOut_ne_ok {hang : Hang} {coverage : TargetCoverage} :
    (r.timedOut context target hang).outcome ≠ .ok (.ok coverage) := by
  intro returned
  obtain ⟨_, _, failed⟩ := timedOut_eq_ok returned
  cases failed

/-- What a target comes to, if there is a result: one case for each way its process may end. -/
inductive ComesTo (r : Runner) (context : RunContext) (target : TestTarget) : RunResult → Prop
  | unstarted {fault : AccessFault} (behaves : context.behaviour target = .cannotStart fault) :
      ComesTo r context target (.error (.silent target (.launch fault (r.program target))))
  | ended {code : Int} {output : Text} {result : RunResult}
      (behaves : context.behaviour target = .exits code output)
      (returned : (r.ended context target code output).outcome = .ok result) :
      ComesTo r context target result
  | timedOut {hang : Hang} {seconds : Binary64} (runs : RunsOutOfTime context target hang)
      (told : context.timeout.seconds? = some seconds) :
      ComesTo r context target
        (.error (.withOutput target (.timedOut seconds) hang.collected))

theorem ComesTo.of_runTarget {result : RunResult} (accepts : r.refuses = false)
    (returned : (r.runTarget context target).outcome = .ok result) :
    r.ComesTo context target result := by
  rw [runTarget, if_neg (by simp [accepts])] at returned
  split at returned
  · next behaves =>
      cases returned
      exact .unstarted behaves
  · cases returned
  · next behaves _ => exact .ended behaves returned
  · next hang behaves _ =>
      obtain ⟨seconds, told, rfl⟩ := timedOut_eq_ok returned
      exact .timedOut (.inl behaves) told
  · next hang behaves _ =>
      obtain ⟨seconds, told, rfl⟩ := timedOut_eq_ok returned
      exact .timedOut (.inr behaves) told
  · cases returned

/-- A target gives coverage exactly if its process ends well and its tracefile has a record. -/
theorem runTarget_eq_ok_iff {coverage : TargetCoverage} (accepts : r.refuses = false) :
    (r.runTarget context target).outcome = .ok (.ok coverage) ↔
      context.waitFault? = none ∧ ∃ output path records record,
        context.behaviour target = .exits 0 output ∧
        Artifact.find? context.workspace r.root target output = some path ∧
        Lcov.read context.workspace path = .ok records ∧
        Lcov.find? records context.source.path = some record ∧
        coverage = ⟨target, record.hits.classify context.source.lines.length⟩ := by
  rw [runTarget, if_neg (by simp [accepts])]
  cases awaited : context.waitFault? with
  | some fault => cases context.behaviour target <;> simp
  | none =>
      cases behaviour : context.behaviour target with
      | exits code output =>
          simp only [Activity.outcome_during, true_and]
          rw [ended]
          split
          · next zero => simp [zero, collect_eq_ok_iff]
          · next nonzero => simp [nonzero]
      | hangs hang => simp [timedOut_ne_ok]
      | blocks hang => simp [timedOut_ne_ok]
      | cannotStart fault => simp
      | interrupts => simp

end Runner

/-! ### A small project -/

namespace Sample

/-- A source file, its two test files, and the tracefile of the first of them. -/
def workspace (tracefile : Text) : Workspace :=
  ⟨.folder "main" (.file "A.kt" (Utf8.encode "val a = 1\nval b = 2\n") .empty) <|
    .folder "test" (.file "ATest.kt" [] (.file "ALocalTest.kt" [] .empty)) <|
    .file "coverage.dat" (Utf8.encode tracefile) .empty, []⟩

def source : SourceFile := ⟨"main/A.kt", ["val a = 1", "val b = 2"]⟩

def passing : TestTarget := ⟨"test/ATest.kt", "test", .standard⟩

def failing : TestTarget := ⟨"test/ALocalTest.kt", "test", .localTest⟩

def plan : ProcessPlan := fun path =>
  if path = passing.testPath then .exits 0 "coverage.dat" else .exits 1 "1 test failed"

def runner : Runner :=
  ⟨⟨.root, []⟩, ["build"], List.cons_ne_nil _ _, 2, by decide, .zero false, false⟩

/-- The first line has run once, and the second one never. -/
def tracefile : Text := "SF:main/A.kt\nDA:1,1\nDA:2,0\n"

/-- The project on a platform without limits. -/
def platform : Platform := .unlimited plan

def context (tracefile : Text) : RunContext := ⟨workspace tracefile, platform, source, .whole 60⟩

end Sample

end FileCoverage

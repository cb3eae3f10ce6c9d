import FileCoverage.Build.History
import FileCoverage.Proofs.InFlight
import FileCoverage.Proofs.TargetResult

/-!
# What a runner keeps of its calls

Some calls decide anew whether processes are refused: a call to cancel everything, and a run that
has targets.  The first refuses them; the second accepts them while it goes on, and refuses them
from then on if something ends it while it waits.  A run that is cut while it does not wait goes on
to accept them.  All other calls leave that as it is.  So the latest of the calls that
decide says whether a target is refused, and a run that has targets does not depend on the calls
before it.
-/

namespace FileCoverage

/-! ### Refusals -/

def RunFailure.IsRefusal (failure : RunFailure) : Prop :=
  failure.cause.kind = .launchError ∧ failure.cause.message = "run cancelled"

theorem RunFailure.isRefusal_iff (failure : RunFailure) :
    failure.IsRefusal ↔ failure.cause = .cancelled := by
  rw [IsRefusal]
  constructor
  · rintro ⟨kind, message⟩
    cases cause : failure.cause with
    | cancelled => rfl
    | launch fault program =>
        rw [cause] at message
        have first : some 'f' = some 'r' := congrArg List.head? message
        cases first
    | _ =>
        rw [cause] at kind
        cases kind
  · intro cancelled
    rw [cancelled]
    exact ⟨rfl, rfl⟩

/-- A target has failed because processes are refused, and none has been started. -/
structure Activity.IsRefused (a : Activity RunResult) : Prop where
  failure : ∃ failure, a.outcome = .ok (.error failure) ∧ failure.IsRefusal
  steps : a.steps = []

namespace Runner

variable {r : Runner} {context : RunContext} {target : TestTarget} {failure : RunFailure}

theorem cause_ne_cancelled_of_collect {output : Text}
    (failed : (r.collect context target output).outcome = .ok (.error failure)) :
    failure.cause ≠ .cancelled := by
  rw [collect] at failed
  split at failed
  · cases failed
    simp [RunFailure.withOutput]
  · split at failed
    · rw [readArtifact] at failed
      split at failed
      · cases failed
      · split at failed
        · cases failed
          simp [RunFailure.withOutput]
        · cases failed
    · cases failed
      simp [RunFailure.withOutput]

theorem cause_ne_cancelled_of_ended {code : Int} {output : Text}
    (failed : (r.ended context target code output).outcome = .ok (.error failure)) :
    failure.cause ≠ .cancelled := by
  rw [ended] at failed
  split at failed
  · exact cause_ne_cancelled_of_collect failed
  · cases failed
    simp [RunFailure.withOutput]

theorem cause_ne_cancelled (accepts : r.refuses = false)
    (failed : (r.runTarget context target).outcome = .ok (.error failure)) :
    failure.cause ≠ .cancelled := by
  cases ComesTo.of_runTarget accepts failed with
  | unstarted _ => simp [RunFailure.silent]
  | ended _ returned => exact cause_ne_cancelled_of_ended returned
  | timedOut _ _ => simp [RunFailure.withOutput]

theorem isRefused_runTarget_iff (r : Runner) (context : RunContext) (target : TestTarget) :
    (r.runTarget context target).IsRefused ↔ r.refuses = true := by
  constructor
  · intro refused
    obtain ⟨failure, failed, refusal⟩ := refused.failure
    by_contra accepts
    exact cause_ne_cancelled (by simpa using accepts) failed (failure.isRefusal_iff.1 refusal)
  · intro refuses
    rw [runTarget, if_pos refuses]
    exact ⟨⟨_, rfl, (RunFailure.isRefusal_iff _).2 rfl⟩, rfl⟩

end Runner

/-! ### The calls that decide -/

/-- Whether the call decides anew if processes are refused after it. -/
def RunnerCall.Decides : RunnerCall → Prop
  | .run _ _ targets _ => targets ≠ []
  | .cutRun _ _ _ targets _ _ => targets ≠ []
  | .runTarget _ _ => False
  | .cancelAll => True

namespace Runner

variable {r : Runner} {call : RunnerCall} {calls rest : List RunnerCall}

/-- The call cancels everything, or is a run that something ends while it waits. -/
def Closes (r : Runner) : RunnerCall → Prop
  | .run context completion targets _ =>
    ∃ abort, (r.runCompleting context completion targets).2.outcome = .error abort
  | .cutRun _ _ _ _ _ _ => False
  | .runTarget _ _ => False
  | .cancelAll => True

/-- The latest of the calls that decide closes the runner. -/
def LatestCloses (r : Runner) (calls : List RunnerCall) : Prop :=
  ∃ past call future, calls = past ++ call :: future ∧ call.Decides ∧
    (∀ later ∈ future, ¬ later.Decides) ∧ (r.afterCalls past).Closes call

theorem runCompleting_nil (r : Runner) (context : RunContext) (completion : List TestTarget) :
    r.runCompleting context completion [] = (r, .quiet []) := by
  rw [runCompleting, if_pos rfl]

theorem runCompleting_reopen (r : Runner) (context : RunContext) (completion : List TestTarget)
    {targets : List TestTarget} (ne : targets ≠ []) :
    r.reopen.runCompleting context completion targets =
      r.runCompleting context completion targets := by
  rw [runCompleting, runCompleting, if_neg ne, if_neg ne]
  rfl

theorem refuses_runCompleting_iff (r : Runner) (context : RunContext)
    (completion : List TestTarget) {targets : List TestTarget} (ne : targets ≠ []) :
    (r.runCompleting context completion targets).1.refuses = true ↔
      ∃ abort, (r.runCompleting context completion targets).2.outcome = .error abort := by
  rw [runCompleting, if_neg ne]
  cases done : (r.reopen.runEach context (targets.any (isInterrupting context))
      completion).outcome with
  | error abort => simp [done, cancelAll]
  | ok completed =>
      simp only [done]
      exact iff_of_false Bool.false_ne_true (by simp)

theorem reopen_runCompleting (r : Runner) (context : RunContext)
    (completion targets : List TestTarget) :
    (r.runCompleting context completion targets).1.reopen = r.reopen := by
  rw [runCompleting]
  split
  · rfl
  · dsimp only
    split
    · rfl
    · rfl

theorem runCut_nil (r : Runner) (context : RunContext) (cut : Cut)
    (completion : List TestTarget) : r.runCut context cut completion [] = (r, ⟨.ok [], [], []⟩) := by
  rw [runCut, if_pos rfl]

theorem runCut_reopen (r : Runner) (context : RunContext) (cut : Cut)
    (completion : List TestTarget) {targets : List TestTarget} (ne : targets ≠ []) :
    r.reopen.runCut context cut completion targets = r.runCut context cut completion targets := by
  rw [runCut, runCut, if_neg ne, if_neg ne]
  rfl

theorem reopen_runCut (r : Runner) (context : RunContext) (cut : Cut)
    (completion targets : List TestTarget) :
    (r.runCut context cut completion targets).1.reopen = r.reopen := by
  rw [runCut]
  split
  · rfl
  · rfl

theorem inFlight_runCut (r : Runner) (context : RunContext) (cut : Cut)
    (completion targets : List TestTarget) :
    ProcessStep.inFlight (r.runCut context cut completion targets).2.steps = [] := by
  rw [runCut]
  split
  · rfl
  · dsimp only
    -- Each target that has been handed over ends its process itself.
    induction completion with
    | nil => rfl
    | cons target completion ih =>
        rw [List.map_cons, List.flatMap_cons,
          ProcessStep.inFlight_append (r.reopen.inFlight_runTarget context target)]
        exact ih

/-- What a call does to the refusal of processes. -/
theorem refuses_perform_iff (r : Runner) (call : RunnerCall) :
    (r.perform call).1.refuses = true ↔
      (call.Decides ∧ r.Closes call) ∨ (¬ call.Decides ∧ r.refuses = true) := by
  cases call with
  | run context completion targets perm =>
      rw [perform]
      rcases eq_or_ne targets [] with rfl | ne
      · simp [runCompleting_nil, RunnerCall.Decides]
      · simpa [RunnerCall.Decides, Closes, ne] using
          r.refuses_runCompleting_iff context completion ne
  | cutRun context cut completion targets count perm =>
      rw [perform]
      rcases eq_or_ne targets [] with rfl | ne
      · simp [runCut_nil, RunnerCall.Decides]
      · simp [runCut, RunnerCall.Decides, Closes, ne, reopen]
  | runTarget context target => simp [perform, RunnerCall.Decides]
  | cancelAll => simp [perform, cancelAll, RunnerCall.Decides, Closes]

/-- A call changes nothing about a runner but whether it refuses processes. -/
theorem reopen_perform (r : Runner) (call : RunnerCall) : (r.perform call).1.reopen = r.reopen := by
  cases call with
  | run context completion targets perm => exact r.reopen_runCompleting context completion targets
  | cutRun context cut completion targets count perm =>
      exact r.reopen_runCut context cut completion targets
  | runTarget context target => rfl
  | cancelAll => rfl

theorem inFlight_perform (r : Runner) (call : RunnerCall) :
    ProcessStep.inFlight (r.perform call).2 = [] := by
  cases call with
  | run context completion targets perm => exact r.inFlight_runCompleting context perm
  | cutRun context cut completion targets count perm =>
      exact r.inFlight_runCut context cut completion targets
  | runTarget context target => exact r.inFlight_runTarget context target
  | cancelAll => rfl

/-! ### Histories -/

theorem not_latestCloses_nil (r : Runner) : ¬ r.LatestCloses [] := by
  rintro ⟨past, call, future, split, _⟩
  exact List.append_ne_nil_of_right_ne_nil past (List.cons_ne_nil call future) split.symm

theorem latestCloses_cons_iff : r.LatestCloses (call :: rest) ↔
    (r.perform call).1.LatestCloses rest ∨
      (∀ later ∈ rest, ¬ later.Decides) ∧ call.Decides ∧ r.Closes call := by
  constructor
  · rintro ⟨past, latest, future, split, decides, none, closes⟩
    -- The latest call that decides is the first of all, or it is among the rest.
    cases past with
    | nil =>
        obtain ⟨rfl, rfl⟩ := List.cons.inj split
        exact .inr ⟨none, decides, closes⟩
    | cons first past =>
        obtain ⟨rfl, rfl⟩ := List.cons.inj split
        exact .inl ⟨past, latest, future, rfl, decides, none, closes⟩
  · intro latest
    rcases latest with ⟨past, latest, future, rfl, decides, none, closes⟩ | ⟨none, decides, closes⟩
    · exact ⟨call :: past, latest, future, rfl, decides, none, closes⟩
    · exact ⟨[], call, rest, rfl, decides, none, closes⟩

theorem refuses_afterCalls_iff (r : Runner) (calls : List RunnerCall) :
    (r.afterCalls calls).refuses = true ↔
      r.LatestCloses calls ∨ (∀ call ∈ calls, ¬ call.Decides) ∧ r.refuses = true := by
  induction calls generalizing r with
  | nil => simp [not_latestCloses_nil]
  | cons call rest ih =>
      rw [afterCalls_cons, ih, latestCloses_cons_iff, refuses_perform_iff, List.forall_mem_cons]
      by_cases decides : call.Decides
      · simp [decides]
      · simp [decides]

theorem reopen_afterCalls (r : Runner) (calls : List RunnerCall) :
    (r.afterCalls calls).reopen = r.reopen := by
  induction calls generalizing r with
  | nil => rfl
  | cons call rest ih => rw [afterCalls_cons, ih, reopen_perform]

theorem inFlight_stepsOf (r : Runner) (calls : List RunnerCall) :
    ProcessStep.inFlight (r.stepsOf calls) = [] := by
  induction calls generalizing r with
  | nil => rfl
  | cons call rest ih => rw [stepsOf, ProcessStep.inFlight_append (r.inFlight_perform call), ih]

theorem refuses_of_make {root : Path} {vars : Variables} {options : RunnerOptions}
    {events : List Event} (made : make root vars options = .ok (r, events)) :
    r.refuses = false := by
  rw [make] at made
  split at made
  · cases made
  · split at made
    · cases made
    · dsimp only at made
      split at made
      · cases made
      · cases made
        rfl

/-- No target of a run is refused. -/
theorem not_isRefusal_of_runCompleting {context : RunContext} {completion targets : List TestTarget}
    (perm : completion.Perm targets) {results : KeyedList TestTarget RunResult}
    (returned : (r.runCompleting context completion targets).2.outcome = .ok results)
    {target : TestTarget} {failure : RunFailure} (mem : (target, .error failure) ∈ results) :
    ¬ failure.IsRefusal := by
  rw [RunFailure.isRefusal_iff]
  have alone := (runCompleting_eq_ok_iff perm results).1 returned
  exact cause_ne_cancelled (r := r.reopen) rfl (alone.outcome _ mem)

/--
After any calls of a new runner, a target by itself is refused exactly if the latest of the calls
that decide has cancelled everything or was a run that something ended while it waited, and not one
that was cut.  A run that has targets goes as it does on the new runner, and refuses none of them; a
run that has none changes nothing.  No process is in flight after the calls, nor whenever all
workers are outside.
-/
theorem refused_by_latest_decision {root : Path} {vars : Variables} {options : RunnerOptions}
    {events : List Event} (made : make root vars options = .ok (r, events))
    (calls : List RunnerCall) :
    (∀ context target,
      ((r.afterCalls calls).runTarget context target).IsRefused ↔ r.LatestCloses calls) ∧
    (∀ context completion targets, targets ≠ [] →
      (r.afterCalls calls).runCompleting context completion targets =
        r.runCompleting context completion targets ∧
      (∀ cut, (r.afterCalls calls).runCut context cut completion targets =
        r.runCut context cut completion targets) ∧
      (completion.Perm targets →
        ∀ results, (r.runCompleting context completion targets).2.outcome = .ok results →
          ∀ target failure, (target, .error failure) ∈ results → ¬ failure.IsRefusal)) ∧
    (∀ context completion, (r.afterCalls calls).runCompleting context completion [] =
      (r.afterCalls calls, .quiet [])) ∧
    ProcessStep.inFlight (r.stepsOf calls) = [] ∧
    ∀ actions t, Interruption.State.initial.after? actions = some t →
      (∀ i, t.phase i = .outside) → t.inFlight = [] := by
  refine ⟨fun context target => ?_, fun context completion targets ne => ⟨?_, ?_, ?_⟩,
    fun context completion => runCompleting_nil _ context completion, r.inFlight_stepsOf calls,
    fun _ _ => Interruption.State.inFlight_eq_nil_of_after?⟩
  · rw [isRefused_runTarget_iff, refuses_afterCalls_iff, refuses_of_make made]
    simp
  · rw [← runCompleting_reopen _ context completion ne, reopen_afterCalls,
      runCompleting_reopen r context completion ne]
  · intro cut
    rw [← runCut_reopen _ context cut completion ne, reopen_afterCalls,
      runCut_reopen r context cut completion ne]
  · exact fun perm results returned target failure mem =>
      not_isRefusal_of_runCompleting perm returned mem

/-- The context of the small project, in which all processes interrupt the run. -/
def interruptedContext : RunContext :=
  { Sample.context Sample.tracefile with platform := .unlimited fun _ => .interrupts }

open Sample in
/-- A run that is interrupted, and after it a target by itself and a run of no targets. -/
theorem refused_by_latest_decision_of_interrupt :
    make ⟨.root, []⟩ [] ⟨some ["build"], some 2, some (.real (.zero false))⟩ = .ok (runner, []) ∧
    ((runner.afterCalls [.cancelAll,
      .run interruptedContext [failing, passing] [passing, failing] (.swap _ _ _),
      .runTarget (context tracefile) passing,
      .run (context tracefile) [] [] .nil]).runTarget (context tracefile) passing).IsRefused := by
  have made : make ⟨.root, []⟩ [] ⟨some ["build"], some 2, some (.real (.zero false))⟩ =
    .ok (runner, []) := rfl
  refine ⟨made, ((refused_by_latest_decision made _).1 _ _).2 ?_⟩
  refine ⟨[.cancelAll], _, _, rfl, List.cons_ne_nil _ _, ?_, .interrupted, rfl⟩
  simp [RunnerCall.Decides]

open Sample in
/--
A run that is interrupted when it has handed over the first of two targets raises the interrupt, and
is the latest call that decides; but a target by itself still starts its process after it.
-/
theorem accepts_after_cut_run :
    (runner.runCut (context tracefile) .interrupted [passing] [passing, failing]).2.outcome =
      .error .interrupted ∧
    ((runner.afterCalls [.cancelAll,
      .cutRun (context tracefile) .interrupted [passing] [passing, failing] 1 (.refl _)]).runTarget
        (context tracefile) failing).launches = [runner.launch failing] :=
  ⟨rfl, rfl⟩

end Runner

end FileCoverage

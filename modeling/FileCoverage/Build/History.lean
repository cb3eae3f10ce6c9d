import FileCoverage.Build.Runner

/-!
# Histories of a runner

A runner may be used several times.  Between the calls it keeps nothing but whether it refuses to
start processes.

A run can be interrupted at any time, and not only while it waits for its targets.  Before that it
hands the targets over to the workers, and does not refuse any of them any more; there a worker may
also be one too many for the operating system.  A run that is cut then, or after it has waited, ends
none of its processes: it raises what has cut it when the targets that it has handed over have come
to their ends.
-/

namespace FileCoverage

/-- What may end a run while it is not waiting for its targets. -/
inductive Cut where
  | interrupted
  /-- One more worker cannot be started. -/
  | noWorker
  deriving DecidableEq, Repr

/-- What comes of a run that may be cut, what happened to processes, and what was warned of. -/
structure CutActivity where
  outcome : Except Cut (KeyedList TestTarget RunResult)
  steps : List ProcessStep
  events : List Event

inductive RunnerCall where
  /-- The targets are over in the order `completion`. -/
  | run (context : RunContext) (completion targets : List TestTarget)
      (perm : completion.Perm targets)
  /--
  The run is cut while it is not waiting for targets, with so many of them handed over.  These are
  over in the order `completion`.
  -/
  | cutRun (context : RunContext) (cut : Cut) (completion targets : List TestTarget) (count : Nat)
      (perm : completion.Perm (targets.take count))
  | runTarget (context : RunContext) (target : TestTarget)
  | cancelAll

namespace Runner

/--
Runs the targets until something cuts the run that does not come while they are waited for.  The
targets that have been handed over are over in the order `completion`.
-/
def runCut (r : Runner) (context : RunContext) (cut : Cut) (completion targets : List TestTarget) :
    Runner × CutActivity :=
  if targets = [] then (r, ⟨.ok [], [], []⟩)
  else
    let done := completion.map fun target => r.reopen.runTarget context target
    (r.reopen, ⟨.error cut, done.flatMap (·.steps), done.flatMap (·.events)⟩)

/-- The runner after a call, and what happened to processes during the call. -/
def perform (r : Runner) : RunnerCall → Runner × List ProcessStep
  | .run context completion targets _ =>
    let (next, done) := r.runCompleting context completion targets
    (next, done.steps)
  | .cutRun context cut completion targets _ _ =>
    let (next, done) := r.runCut context cut completion targets
    (next, done.steps)
  | .runTarget context target => (r, (r.runTarget context target).steps)
  | .cancelAll => (r.cancelAll, [])

def afterCalls (r : Runner) (calls : List RunnerCall) : Runner :=
  calls.foldl (fun r call => (r.perform call).1) r

/-- What happened to processes during the calls. -/
def stepsOf (r : Runner) : List RunnerCall → List ProcessStep
  | [] => []
  | call :: rest => (r.perform call).2 ++ (r.perform call).1.stepsOf rest

@[simp]
theorem afterCalls_nil (r : Runner) : r.afterCalls [] = r := rfl

@[simp]
theorem afterCalls_cons (r : Runner) (call : RunnerCall) (rest : List RunnerCall) :
    r.afterCalls (call :: rest) = (r.perform call).1.afterCalls rest := rfl

theorem afterCalls_append (r : Runner) (past future : List RunnerCall) :
    r.afterCalls (past ++ future) = (r.afterCalls past).afterCalls future :=
  List.foldl_append

end Runner

end FileCoverage

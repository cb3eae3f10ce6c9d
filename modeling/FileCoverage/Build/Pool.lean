import FileCoverage.Build.Runner

/-!
# The workers of a run

The targets of a run wait in order for a worker.  A worker takes the first of them, looks whether
processes are refused, and is busy until the target is over; workers end in any order.  What ends
the run is noticed after the target that causes it is over: the targets that still wait are dropped,
and processes are refused from then on.  The run is over when nothing waits and no worker is busy.

A schedule is a list of actions; `step?` says whether an action is possible and what it leads to.
-/

namespace FileCoverage

def Runner.workers (r : Runner) (targets : List TestTarget) : Nat :=
  min r.maxWorkers.toNat targets.length

/-- The targets of a run and what has come of them. -/
structure Pool where
  refuses : Bool
  waiting : List TestTarget
  /-- The targets that workers are busy with, and whether processes were refused to each. -/
  running : List (TestTarget × Bool)
  /-- What has come of targets, in the order in which they were over. -/
  completed : List (TestTarget × Except Abort RunResult)

namespace Pool

inductive Action where
  /-- A worker takes the first target that waits. -/
  | take
  /-- One of the targets that workers are busy with is over. -/
  | finish (place : Nat)
  /-- It is noticed that a target has ended the run. -/
  | cancel
  deriving DecidableEq, Repr

def start (targets : List TestTarget) : Pool := ⟨false, targets, [], []⟩

/-- The pool after an action, if the action is possible. -/
def step? (r : Runner) (context : RunContext) (workers : Nat) (p : Pool) : Action → Option Pool
  | .take =>
    match p.waiting with
    | target :: rest =>
      if p.running.length < workers then
        some { p with waiting := rest, running := p.running ++ [(target, p.refuses)] }
      else none
    | [] => none
  | .finish place =>
    match p.running[place]? with
    | some (target, refused) =>
      let done := { r with refuses := refused }.runTarget context target
      some { p with
        running := p.running.eraseIdx place, completed := p.completed ++ [(target, done.outcome)] }
    | none => none
  | .cancel =>
    if p.completed.any (!·.2.isOk) then some { p with refuses := true, waiting := [] } else none

/-- The pool after a schedule, if it is possible. -/
def after? (r : Runner) (context : RunContext) (workers : Nat) (p : Pool) :
    List Action → Option Pool
  | [] => some p
  | a :: rest => (p.step? r context workers a).bind fun next => next.after? r context workers rest

/-- The results in the order in which they came, up to one that ends the run. -/
def gather : List (TestTarget × Except Abort RunResult) →
    Except Abort (List (TestTarget × RunResult))
  | [] => .ok []
  | (target, .ok result) :: rest => (gather rest).map ((target, result) :: ·)
  | (_, .error abort) :: _ => .error abort

/-- What the run of the targets comes to, once it is over. -/
def outcome? (targets : List TestTarget) (p : Pool) :
    Option (Except Abort (KeyedList TestTarget RunResult)) :=
  if p.waiting = [] ∧ p.running = [] then
    some <| (gather p.completed).map fun completed =>
      Runner.arrange (KeyedList.ofPairs completed) targets
  else none

@[simp]
theorem after?_nil (r : Runner) (context : RunContext) (workers : Nat) (p : Pool) :
    p.after? r context workers [] = some p := rfl

end Pool

end FileCoverage

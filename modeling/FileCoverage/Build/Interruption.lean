/-!
# Interrupting a run

Several workers start processes while another thread may cancel the run.  A lock guards the
processes in flight:

* a worker takes the lock, looks whether the run refuses processes, and if it does not, starts one
  and enters it before it gives the lock back; when the process is over it takes the lock again and
  strikes it off;
* the canceller first makes the run refuse processes, without the lock, and then takes the lock and
  captures the processes in flight; without the lock it ends them one after the other.

A history is a list of actions; `step?` says whether an action is possible in a state, and what the
state is after it.  Workers and processes are numbered, the processes in the order in which they
were started.
-/

namespace FileCoverage.Interruption

inductive Holder where
  | worker (i : Nat)
  | canceller
  deriving DecidableEq, Repr

inductive Phase where
  | outside
  /-- It has the lock and has not looked yet. -/
  | entered
  /-- It has the lock and has seen that processes may be started. -/
  | allowed
  /-- It has the lock and has started a process. -/
  | started (process : Nat)
  /-- It waits for its process, without the lock. -/
  | waiting (process : Nat)
  /-- It has the lock to strike off its process. -/
  | leaving (process : Nat)
  deriving DecidableEq, Repr

inductive CancelPhase where
  | before
  | refused
  /-- It has the lock. -/
  | capturing
  /-- It has captured processes, and has still to end these. -/
  | captured (remaining : List Nat)
  deriving DecidableEq, Repr

structure State where
  refuses : Bool
  holder : Option Holder
  phase : Nat → Phase
  cancel : CancelPhase
  /-- The processes that are entered. -/
  inFlight : List Nat
  /-- How many processes have been started. -/
  count : Nat
  /-- The processes that have been struck off. -/
  finished : List Nat
  /-- The processes that the canceller has ended. -/
  terminated : List Nat

def State.initial : State := ⟨false, none, fun _ => .outside, .before, [], 0, [], []⟩

inductive Action where
  /-- A worker takes the lock to start a process. -/
  | enter (i : Nat)
  /-- A worker looks whether processes are refused, and gives the lock back if they are. -/
  | look (i : Nat)
  | start (i : Nat)
  /-- The process of a worker cannot be started; the worker gives the lock back. -/
  | fail (i : Nat)
  /-- A worker enters its process and gives the lock back. -/
  | record (i : Nat)
  /-- A worker takes the lock to strike off its process. -/
  | leave (i : Nat)
  /-- A worker strikes off its process and gives the lock back. -/
  | strike (i : Nat)
  /-- The canceller makes the run refuse processes. -/
  | refuse
  /-- The canceller takes the lock. -/
  | seize
  /-- The canceller captures the processes in flight and gives the lock back. -/
  | capture
  /-- The canceller ends the next of the processes that it has captured. -/
  | terminate
  /-- Another run begins. -/
  | reopen
  deriving DecidableEq, Repr

namespace State

def setPhase (s : State) (i : Nat) (p : Phase) : State :=
  { s with phase := fun j => if j = i then p else s.phase j }

/-- Whether a process has been started and not struck off. -/
def isAlive (s : State) (process : Nat) : Bool :=
  decide (process < s.count) && !s.finished.contains process

def looked (s : State) (i : Nat) : State :=
  if s.refuses then { s.setPhase i .outside with holder := none } else s.setPhase i .allowed

/-- The state after an action, if the action is possible. -/
def step? (s : State) : Action → Option State
  | .enter i =>
    if s.holder = none ∧ s.phase i = .outside then
      some { s.setPhase i .entered with holder := some (.worker i) }
    else none
  | .look i => if s.phase i = .entered then some (s.looked i) else none
  | .start i =>
    if s.phase i = .allowed then
      some { s.setPhase i (.started s.count) with count := s.count + 1 }
    else none
  | .fail i =>
    if s.phase i = .allowed then some { s.setPhase i .outside with holder := none } else none
  | .record i =>
    match s.phase i with
    | .started process =>
      some { s.setPhase i (.waiting process) with
        holder := none, inFlight := s.inFlight ++ [process] }
    | _ => none
  | .leave i =>
    match s.phase i with
    | .waiting process =>
      if s.holder = none then
        some { s.setPhase i (.leaving process) with holder := some (.worker i) }
      else none
    | _ => none
  | .strike i =>
    match s.phase i with
    | .leaving process =>
      some { s.setPhase i .outside with
        holder := none, inFlight := s.inFlight.erase process, finished := s.finished ++ [process] }
    | _ => none
  | .refuse =>
    if s.cancel = .before then some { s with refuses := true, cancel := .refused } else none
  | .seize =>
    if s.holder = none ∧ s.cancel = .refused then
      some { s with holder := some .canceller, cancel := .capturing }
    else none
  | .capture =>
    if s.cancel = .capturing then some { s with holder := none, cancel := .captured s.inFlight }
    else none
  | .terminate =>
    match s.cancel with
    | .captured (process :: remaining) =>
      some { s with cancel := .captured remaining, terminated := s.terminated ++ [process] }
    | _ => none
  | .reopen => some { s with refuses := false }

/-- The state after a history, if it is possible. -/
def after? (s : State) : List Action → Option State
  | [] => some s
  | a :: rest => (s.step? a).bind fun next => next.after? rest

@[simp]
theorem after?_nil (s : State) : s.after? [] = some s := rfl

theorem after?_append (s : State) (past future : List Action) :
    s.after? (past ++ future) = (s.after? past).bind fun t => t.after? future := by
  induction past generalizing s with
  | nil => rfl
  | cons a rest ih =>
    simp only [List.cons_append, after?, Option.bind_assoc, ih]

end State

end FileCoverage.Interruption

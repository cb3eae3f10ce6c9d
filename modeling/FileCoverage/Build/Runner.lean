import FileCoverage.Build.Artifact
import FileCoverage.Build.Command
import FileCoverage.Build.Duration
import FileCoverage.Build.Process
import FileCoverage.Environment.Settings
import FileCoverage.Lcov.Lookup

/-!
# Running targets

A runner starts one process per target and turns its tracefile into coverage.  Whatever goes wrong
with one target is the result of that target.  Four things end a whole run: an interrupt, a process
that cannot be waited for, a tracefile that cannot be read, and a target that runs out of more time
than can be told.  A run that has been ended so refuses to start processes from then on, until the
next run with targets.
-/

namespace FileCoverage

/-- A process that has been started: its words and its working directory. -/
structure Launch where
  argv : List Text
  directory : Text
  deriving DecidableEq, Repr

inductive ProcessStep where
  | started (launch : Launch)
  /-- The runner is done with the process: it is over, or it cannot be waited for. -/
  | ended (launch : Launch)
  deriving DecidableEq, Repr

namespace ProcessStep

/-- The process, if it is started by the step. -/
def launch? : ProcessStep → Option Launch
  | started launch => some launch
  | ended _ => none

def advance (inFlight : List Launch) : ProcessStep → List Launch
  | started launch => inFlight ++ [launch]
  | ended launch => inFlight.erase launch

/-- The processes in flight after steps, if none is before them. -/
def inFlight (steps : List ProcessStep) : List Launch := steps.foldl advance []

@[simp]
theorem inFlight_nil : inFlight [] = [] := rfl

end ProcessStep

inductive Abort where
  | interrupted
  /-- A process that has been started cannot be waited for. -/
  | waiting (fault : WaitFault)
  | tracefile (fault : Lcov.ReadFault)
  /-- A target has run out of a time that no number of 64 bits can hold. -/
  | timeoutTooLong
  deriving DecidableEq, Repr

/-- The wording of what ends a run; there is nothing to say about an interrupt. -/
def Abort.message : Abort → Text
  | .interrupted => []
  | .waiting fault => fault.message
  | .tracefile fault => fault.message
  | .timeoutTooLong => Duration.tooLongMessage

/-- What comes of running targets, what happened to processes, and what was warned of. -/
structure Activity (α : Type) where
  outcome : Except Abort α
  steps : List ProcessStep
  events : List Event

namespace Activity

variable {α : Type}

/-- Nothing is started and nothing is warned of. -/
def quiet (value : α) : Activity α := ⟨.ok value, [], []⟩

def after (steps : List ProcessStep) (events : List Event) (a : Activity α) : Activity α :=
  ⟨a.outcome, steps ++ a.steps, events ++ a.events⟩

def during (launch : Launch) (a : Activity α) : Activity α :=
  ⟨a.outcome, .started launch :: a.steps ++ [.ended launch], a.events⟩

@[simp]
theorem outcome_quiet (value : α) : (quiet value).outcome = .ok value := rfl

@[simp]
theorem outcome_after (steps : List ProcessStep) (events : List Event) (a : Activity α) :
    (a.after steps events).outcome = a.outcome := rfl

@[simp]
theorem outcome_during (launch : Launch) (a : Activity α) :
    (a.during launch).outcome = a.outcome := rfl

def launches (a : Activity α) : List Launch := a.steps.filterMap ProcessStep.launch?

end Activity

/-- Why there is no runner. -/
inductive SetupFault where
  | words (fault : ShellWords.Fault)
  | emptyCommand
  /-- No number of 64 bits can hold the time that a process has to end. -/
  | graceTooLong
  deriving DecidableEq, Repr

def SetupFault.message : SetupFault → Text
  | .words fault => fault.message
  | .emptyCommand => "coverage command must not be empty"
  | .graceTooLong => Duration.tooLongMessage

/-- Where targets run and by which command, and whether processes may be started. -/
structure Runner where
  root : Path
  command : List Text
  command_ne_nil : command ≠ []
  maxWorkers : Int
  one_le_maxWorkers : 1 ≤ maxWorkers
  grace : Binary64
  refuses : Bool

/-- What a runner needs; what is not given is taken from the environment. -/
structure RunnerOptions where
  command : Option (List Text)
  maxWorkers : Option Int
  grace : Option Duration

def RunnerOptions.none : RunnerOptions := ⟨.none, .none, .none⟩

/-- What the process of a target is run with. -/
structure RunContext where
  workspace : Workspace
  platform : Platform
  source : SourceFile
  timeout : Duration

namespace RunContext

/-- How the process of a target behaves. -/
def behaviour (context : RunContext) (target : TestTarget) : Behaviour :=
  context.platform.plan target.testPath

/-- Why no process can be waited for as long as a target has. -/
def waitFault? (context : RunContext) : Option WaitFault :=
  context.platform.waitFault? context.timeout

end RunContext

namespace Runner

def givenOr {α : Type} (given : Option α) (setting : α × List Event) : α × List Event :=
  match given with
  | some a => (a, [])
  | none => setting

def commandWords (vars : Variables) : Option (List Text) → Except ShellWords.Fault (List Text)
  | some words => .ok words
  | none => Settings.command vars

/-- The seconds that a process has to end, unless they are too many. -/
def graceSeconds (vars : Variables) : Option Duration → Option (Binary64 × List Event)
  | some grace => grace.seconds?.map fun seconds => (seconds, [])
  | none => some (Settings.cancelGrace vars)

/-- A runner for a repository, with what was warned of on the way. -/
def make (root : Path) (vars : Variables) (options : RunnerOptions) :
    Except SetupFault (Runner × List Event) :=
  match commandWords vars options.command with
  | .error fault => .error (.words fault)
  | .ok command =>
    if h : command = [] then .error .emptyCommand
    else
      let (workers, warned) := givenOr options.maxWorkers (Settings.maxWorkers vars)
      match graceSeconds vars options.grace with
      | none => .error .graceTooLong
      | some (grace, warned') =>
        .ok (⟨root, command, h, max 1 workers, Int.le_max_left 1 workers, grace, false⟩,
          warned ++ warned')

def argv (r : Runner) (target : TestTarget) : List Text := Command.fill r.root target r.command

def program (r : Runner) (target : TestTarget) : Text :=
  Command.fillWord r.root target (r.command.head r.command_ne_nil)

def launch (r : Runner) (target : TestTarget) : Launch := ⟨r.argv target, r.root.toText⟩

def cancelAll (r : Runner) : Runner := { r with refuses := true }

def reopen (r : Runner) : Runner := { r with refuses := false }

/-- The most lines that are warned of. -/
def shownLines : Nat := 10

/-- What is warned of if a tracefile reports lines that a source file does not have. -/
def outOfRangeEvents (target : TestTarget) (hits : Hits) (lineCount : Nat) : List Event :=
  match hits.outOfRange lineCount with
  | [] => []
  | lines => [.linesOutOfRange target.label (lines.take shownLines)]

/-- What the tracefile at a path says about the source file. -/
def readArtifact (context : RunContext) (target : TestTarget) (output : Text) (path : Path) :
    Activity RunResult :=
  let source := context.source
  match Lcov.read context.workspace path with
  | .error fault => ⟨.error (.tracefile fault), [], []⟩
  | .ok records =>
    match Lcov.find? records source.path with
    | none => .quiet (.error (.withOutput target (.noCoverageData source.path path) output))
    | some record =>
      ⟨.ok (.ok ⟨target, record.hits.classify source.lines.length⟩), [],
        outOfRangeEvents target record.hits source.lines.length⟩

def collect (r : Runner) (context : RunContext) (target : TestTarget) (output : Text) :
    Activity RunResult :=
  match Artifact.find? context.workspace r.root target output with
  | none => .quiet (.error (.withOutput target (.missingArtifact none) output))
  | some path =>
    if context.workspace.isFile path then readArtifact context target output path
    else .quiet (.error (.withOutput target (.missingArtifact (some path)) output))

/-- What comes of a target whose process has ended by itself. -/
def ended (r : Runner) (context : RunContext) (target : TestTarget) (code : Int) (output : Text) :
    Activity RunResult :=
  if code = 0 then r.collect context target output
  else
    ⟨.ok (.error (.withOutput target (.exited code) output)), [], [.exited target.label code]⟩

/-- Why the output of a process that has run out of time cannot be waited for. -/
def graceFault? (r : Runner) (context : RunContext) (hang : Hang) : Option WaitFault :=
  if hang.outputClosed then none else context.platform.waitFault? (.real r.grace)

/-- What comes of a target whose process has run out of time. -/
def timedOut (r : Runner) (context : RunContext) (target : TestTarget) (hang : Hang) :
    Activity RunResult :=
  match r.graceFault? context hang with
  | some fault => ⟨.error (.waiting fault), [], []⟩
  | none =>
    let events := [.timedOut target.label hang.isForceKilled]
    match context.timeout.seconds? with
    | none => ⟨.error .timeoutTooLong, [], events⟩
    | some seconds =>
      ⟨.ok (.error (.withOutput target (.timedOut seconds) hang.collected)), [], events⟩

def runTarget (r : Runner) (context : RunContext) (target : TestTarget) : Activity RunResult :=
  if r.refuses then .quiet (.error (.silent target .cancelled))
  else match context.behaviour target, context.waitFault? with
    | .cannotStart fault, _ =>
      ⟨.ok (.error (.silent target (.launch fault (r.program target)))), [],
        [.launchFailed target.label (fault.message (r.program target))]⟩
    | _, some fault => Activity.during (r.launch target) ⟨.error (.waiting fault), [], []⟩
    | .exits code output, none => (r.ended context target code output).during (r.launch target)
    | .hangs hang, none | .blocks hang, none =>
      (r.timedOut context target hang).during (r.launch target)
    | .interrupts, none => Activity.during (r.launch target) ⟨.error .interrupted, [], []⟩

/-! ### Several targets -/

/-- Whether the run is interrupted while it waits for the process of a target. -/
def isInterrupting (context : RunContext) (target : TestTarget) : Bool :=
  match context.behaviour target, context.waitFault? with
  | .interrupts, none => true
  | _, _ => false

/-- Whether the process of a target is waited for until the run is interrupted. -/
def isBlocking (context : RunContext) (target : TestTarget) : Bool :=
  match context.behaviour target, context.waitFault? with
  | .blocks _, none => true
  | _, _ => false

def canStart (context : RunContext) (target : TestTarget) : Bool :=
  match context.behaviour target with
  | .cannotStart _ => false
  | _ => true

/-- The targets up to the last one that blocks. -/
def upToLastBlocking (context : RunContext) (targets : List TestTarget) : List TestTarget :=
  (targets.reverse.dropWhile fun target => !isBlocking context target).reverse

/-- The processes that have been started beside a target that ends the run. -/
def startedBeside (r : Runner) (context : RunContext) (targets : List TestTarget) :
    List ProcessStep :=
  ((upToLastBlocking context targets).filter (canStart context)).map fun target =>
    .started (r.launch target)

/--
The results of the targets one after the other, up to one that ends the run.  If the run is going to
be interrupted, the targets that block have no result of their own.
-/
def runEach (r : Runner) (context : RunContext) (interrupted : Bool) :
    List TestTarget → Activity (List (TestTarget × RunResult))
  | [] => .quiet []
  | target :: rest =>
    if interrupted && isBlocking context target then
      (runEach r context interrupted rest).after [.started (r.launch target)] []
    else
      let done := r.runTarget context target
      match done.outcome with
      | .error abort =>
        ⟨.error abort, done.steps ++ r.startedBeside context rest, done.events⟩
      | .ok result =>
        let more := (runEach r context interrupted rest).after done.steps done.events
        ⟨more.outcome.map ((target, result) :: ·), more.steps, more.events⟩

/-- What is warned of while the processes that block are ended. -/
def endingEvents (context : RunContext) (targets : List TestTarget) : List Event :=
  targets.flatMap fun target =>
    match context.behaviour target with
    | .blocks hang => [.cancelled, .exited target.label (-hang.endingSignal)]
    | _ => []

/-- The steps with the end of every process that is still in flight after them. -/
def endAll (steps : List ProcessStep) : List ProcessStep :=
  steps ++ (ProcessStep.inFlight steps).map .ended

/-- The results of targets, in the order of the targets instead of that in which they came. -/
def arrange (completed : KeyedList TestTarget RunResult) (targets : List TestTarget) :
    KeyedList TestTarget RunResult :=
  KeyedList.ofPairs <| targets.filterMap fun target =>
    (KeyedList.get? target completed).map fun result => (target, result)

/--
Runs the targets, which are over in the order `completion`.  The result of each is under the target,
in the order in which the targets first come in `targets`.
-/
def runCompleting (r : Runner) (context : RunContext) (completion targets : List TestTarget) :
    Runner × Activity (KeyedList TestTarget RunResult) :=
  if targets = [] then (r, .quiet [])
  else
    let interrupted := targets.any (isInterrupting context)
    let done := r.reopen.runEach context interrupted completion
    match done.outcome with
    | .ok completed =>
      (r.reopen,
        ⟨.ok (arrange (KeyedList.ofPairs completed) targets), done.steps, done.events⟩)
    | .error abort =>
      let ending := if interrupted then endingEvents context targets else []
      (r.cancelAll, ⟨.error abort, endAll done.steps, done.events ++ ending⟩)

/-- Runs the targets, each of which is over before the next begins. -/
def run (r : Runner) (context : RunContext) (targets : List TestTarget) :
    Runner × Activity (KeyedList TestTarget RunResult) :=
  r.runCompleting context targets targets

@[simp]
theorem run_nil (r : Runner) (context : RunContext) : r.run context [] = (r, .quiet []) := rfl

end Runner

def successes (results : KeyedList TestTarget RunResult) : List TargetCoverage :=
  results.filterMap fun (_, result) => result.toOption

def failures (results : KeyedList TestTarget RunResult) : List RunFailure :=
  results.filterMap fun (_, result) =>
    match result with
    | .error failure => some failure
    | .ok _ => none

end FileCoverage

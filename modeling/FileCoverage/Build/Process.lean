import FileCoverage.Build.Waiting
import FileCoverage.FileTree.Workspace

/-!
# Processes

How the process that runs a target behaves: it ends by itself, it cannot be started, or it goes on
until it is ended.  A process that goes on is first asked to end; if it is still there after a time,
it is killed.

The program depends on the operating system in no more than that, how long it waits for a process,
and what becomes of a file that is written.
-/

namespace FileCoverage

/-- The two ways to end a process. -/
inductive Signal where
  | term
  | kill
  deriving DecidableEq, Repr

/-- A process that goes on until it is ended. -/
structure Hang where
  output : Text
  /-- It does not end when it is asked to. -/
  stubborn : Bool
  /-- Its output does not end in time when it has ended, as another process still holds it. -/
  pipeHeld : Bool
  /-- The signal that does not find it any more. -/
  gone : Option Signal
  /-- It has closed its output while it was waited for, so its output is not waited for again. -/
  outputClosed : Bool
  deriving DecidableEq, Repr

namespace Hang

/-- Whether it is there to be killed after it was asked to end. -/
def isForceKilled (hang : Hang) : Bool :=
  hang.stubborn && hang.gone.isNone

def collected (hang : Hang) : Text := if hang.pipeHeld then [] else hang.output

def endingSignal (hang : Hang) : Int := if hang.isForceKilled then 9 else 15

end Hang

inductive Behaviour where
  | exits (code : Int) (output : Text)
  | cannotStart (fault : AccessFault)
  | hangs (hang : Hang)
  /-- The run is interrupted while this process is waited for. -/
  | interrupts
  /-- It goes on until the run is interrupted. -/
  | blocks (hang : Hang)
  deriving DecidableEq, Repr

/-- The behaviour of the process for each test path. -/
abbrev ProcessPlan := Text → Behaviour

/-- What the operating system makes of what the program asks of it. -/
structure Platform where
  plan : ProcessPlan
  /-- Why a process is not waited for so long, if it is not. -/
  waitFault? : Duration → Option WaitFault
  storage : Storage

namespace Platform

/-- Processes are waited for however long it takes, and all contents are written. -/
def unlimited (plan : ProcessPlan) : Platform := ⟨plan, fun _ => none, fun _ _ => .written⟩

/-- Processes are waited for as long as the operating system can. -/
def polling (plan : ProcessPlan) (storage : Storage) : Platform :=
  ⟨plan, WaitFault.ofPoll?, storage⟩

end Platform

end FileCoverage

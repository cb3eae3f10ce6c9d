import FileCoverage.Analysis
import FileCoverage.CommandLine.LogLevel
import FileCoverage.CommandLine.RunOptions
import FileCoverage.CommandLine.Toolkit
import FileCoverage.Exemption.Dataset
import FileCoverage.PresenceCheck

/-!
# Execution

What a call does: the text it writes to the two outputs, the files it leaves, the processes it
starts, the events it tells of, and the status with which it ends.  What the user can put right ends
with a message; what nobody foresees there ends the program where it stands.
-/

namespace FileCoverage.CommandLine

structure Host where
  workspace : Workspace
  vars : Variables
  platform : Platform

/-- What ends the program without a message of its own. -/
inductive Crash where
  | loading (fault : LoadingFault)
  | setup (fault : SetupFault)
  | numeral (fault : NumeralFault)
  | file (fault : FileFault)
  | storage (fault : StorageFault)
  | waiting (fault : WaitFault)
  | tracefile (fault : Lcov.ReadFault)
  | length (fault : LengthFault)
  /-- No number of 64 bits can hold the time that one target has. -/
  | timeoutTooLong
  deriving DecidableEq, Repr

def Crash.message : Crash → Text
  | .loading fault => fault.message
  | .setup fault => fault.message
  | .numeral fault => fault.message
  | .file fault => fault.message
  | .storage fault => fault.message
  | .waiting fault => fault.message
  | .tracefile fault => fault.message
  | .length fault => fault.message
  | .timeoutTooLong => Duration.tooLongMessage

inductive Ending where
  | exit (code : Nat)
  | crash (crash : Crash)
  deriving DecidableEq, Repr

structure Execution where
  ending : Ending
  stdout : Text
  stderr : Text
  workspace : Workspace
  launches : List Launch
  events : List Event

namespace Execution

/-- A call that has ended well, having only written text. -/
def printed (host : Host) (stdout : Text) : Execution :=
  ⟨.exit 0, stdout, [], host.workspace, [], []⟩

/-- A call that has ended with a report of what is wrong. -/
def refused (host : Host) (code : Nat) (stderr : Text) : Execution :=
  ⟨.exit code, [], stderr, host.workspace, [], []⟩

def crashed (host : Host) (crash : Crash) : Execution :=
  ⟨.crash crash, [], [], host.workspace, [], []⟩

/-- The execution with events before it. -/
def after (events : List Event) (e : Execution) : Execution :=
  { e with events := events ++ e.events }

/-- The execution as it is seen: the messages of less importance are not shown. -/
def shown (least : LogLevel) (e : Execution) : Execution :=
  { e with events := least.shown e.events }

/-- The execution as it is seen where no terminal reads the outputs. -/
def plain (toolkit : Toolkit) (e : Execution) : Execution :=
  { e with
    stdout := toolkit.plain e.stdout
    stderr := toolkit.plain e.stderr }

def usageStatus : Nat := 2

def failureStatus : Nat := 1

def interruptStatus : Nat := 130

def passedBanner : Text := "COVERAGE ANALYSIS PASSED\n"

def failedBanner : Text := "COVERAGE ANALYSIS FAILED\n"

def abortedBanner : Text := "Aborted!\n"

/-- What comes of a dataset of exemptions that cannot be used. -/
def ofLoadFault (toolkit : Toolkit) (host : Host) (fault : LoadFault) : Execution :=
  match fault with
  | .json _ (.numeral fault) => crashed host (.numeral fault)
  | fault => refused host failureStatus (toolkit.errorLine fault.message)

/-! ### Listing exemptions -/

def loadRegistry (host : Host) (root : Path) : Except LoadFault Registry :=
  Registry.load host.workspace (Settings.exemptionsPath host.vars root)

def listing (json : Bool) (registry : Registry) : Text :=
  if json then registry.toJsonText
  else (registry.toText.reverse.dropWhile (· = '\n')).reverse

def regenerate (toolkit : Toolkit) (host : Host) (root : Path) (json : Bool) : Execution :=
  match loadRegistry host root with
  | .error fault => ofLoadFault toolkit host fault
  | .ok registry =>
    printed host ("Regenerated exemptions:\n\n" ++ listing json registry.regenerate ++ "\n")

/-! ### Checking for tests -/

/-- The line about a file without a test. -/
def missingTestLine (path : Text) : Text :=
  "File " ++ path ++ " does not have a corresponding test file.\n"

/-- Reports the files without tests. -/
def reportMissing (toolkit : Toolkit) (host : Host) : List Text → Execution
  | [] => printed host "TEST FILE CHECK PASSED\n"
  | missing =>
    ⟨.exit failureStatus, missing.flatMap missingTestLine ++ "\n",
      toolkit.errorLine "TEST FILE CHECK FAILED", host.workspace, [], []⟩

def checkTestFiles (toolkit : Toolkit) (host : Host) (root : Path) (extension : Text) :
    Execution :=
  match loadRegistry host root with
  | .error fault => ofLoadFault toolkit host fault
  | .ok registry =>
    reportMissing toolkit host (PresenceCheck.missingTests host.workspace root
      (Settings.reportsFolder host.vars) extension registry)

/-! ### Running an analysis -/

/-- What comes of a fault in the options of a run. -/
def ofRunOptionFault (toolkit : Toolkit) (host : Host) : RunOptionFault → Execution
  | .usage fault =>
    refused host usageStatus (failedBanner ++ toolkit.usageReport (.command .run) fault.message)
  | fault => refused host failureStatus (failedBanner ++ toolkit.errorLine fault.message)

def ofOutcome (toolkit : Toolkit) : Except AnalysisFault Outcome → Ending × Text × Text
  | .ok (.skipped _) => (.exit 0, [], [])
  | .ok (.reported _ output _) =>
    (.exit 0, "Computed coverage report: " ++ output.toText ++ "\n" ++ passedBanner, [])
  | .error (.aborted .interrupted) =>
    (.exit interruptStatus, [], toolkit.interruptLine ++ abortedBanner)
  | .error (.aborted (.waiting fault)) => (.crash (.waiting fault), [], [])
  | .error (.aborted (.tracefile fault)) => (.crash (.tracefile fault), [], [])
  | .error (.file fault) => (.crash (.file fault), [], [])
  | .error (.storage fault) => (.crash (.storage fault), [], [])
  | .error (.length fault) => (.crash (.length fault), [], [])
  | .error .timeoutTooLong | .error (.aborted .timeoutTooLong) => (.crash .timeoutTooLong, [], [])
  | .error fault => (.exit failureStatus, [], failedBanner ++ toolkit.errorLine fault.message)

def ofAnalysis (toolkit : Toolkit) (a : Analysis) : Execution :=
  let (ending, stdout, stderr) := ofOutcome toolkit a.outcome
  ⟨ending, a.echo ++ stdout, stderr, a.workspace, a.launches, a.events⟩

def analyse (toolkit : Toolkit) (host : Host) (root : Path) (source : Text)
    (options : RunOptions) : Execution :=
  match loadRegistry host root with
  | .error fault => ofLoadFault toolkit host fault
  | .ok registry =>
    match Runner.make root host.vars .none with
    | .error fault => crashed host (.setup fault)
    | .ok (runner, warned) =>
      let output := Report.path root (Settings.reportsFolder host.vars) source options.format
      let timeout := Duration.ofMinutes options.minutes
      let (_, a) := Analysis.run ⟨source, options.format, output, timeout⟩
        ⟨root, registry, Layout.defaultRules⟩ host.workspace runner host.platform
      (ofAnalysis toolkit a).after warned

def run (toolkit : Toolkit) (host : Host) (root : Path) (source : Text) (options : List Text) :
    Execution :=
  let warned := (Settings.timeoutMinutes host.vars).2
  match RunOptions.parse host.vars options with
  | .error fault => (ofRunOptionFault toolkit host fault).after warned
  | .ok options => (analyse toolkit host root source options).after warned

end Execution

def Request.execute (toolkit : Toolkit) (host : Host) : Request → Execution
  | run root source options => .run toolkit host (Path.ofText root) source options
  | regenerate root json => .regenerate toolkit host (Path.ofText root) json
  | checkTestFiles root extension => .checkTestFiles toolkit host (Path.ofText root) extension
  | help callee => .printed host (toolkit.help callee)

def CommandName.execute (toolkit : Toolkit) (host : Host) (name : CommandName)
    (arguments : List Text) : Execution :=
  match toolkit.request host.workspace name arguments with
  | .error (.usage report) => .refused host Execution.usageStatus report
  | .error .nulInRoot => .crashed host (.file .nulInPath)
  | .ok request => request.execute toolkit host

/--
Does what the arguments of a call ask for.  How much is shown is settled and the environment file is
loaded once the command is known, and before its own arguments are looked at.
-/
def perform (toolkit : Toolkit) (host : Host) (arguments : List Text) : Execution :=
  match toolkit.call arguments with
  | .error report => .refused host Execution.usageStatus report
  | .ok .help => .printed host (toolkit.help .program)
  | .ok (.command verbose name rest) =>
    let least := LogLevel.choose verbose host.vars
    match EnvFile.load toolkit.loadFile host.workspace host.vars with
    | (_, some fault) => .crashed host (.loading fault)
    | (vars, none) => (name.execute toolkit { host with vars } rest).shown least

/-- Executes a call with the given arguments, whose outputs no terminal reads. -/
def execute (toolkit : Toolkit) (host : Host) (arguments : List Text) : Execution :=
  (perform toolkit host arguments).plain toolkit

end FileCoverage.CommandLine

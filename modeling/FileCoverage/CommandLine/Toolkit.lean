import FileCoverage.CommandLine.Command
import FileCoverage.Environment.Loading

/-!
# The toolkit

The program does not take apart its arguments itself, nor the contents of an environment file, and
it does not lay out what it says of a mistake.  All this comes from a toolkit, of which only a
little is presupposed.
-/

namespace FileCoverage.CommandLine

/-- Why the arguments of a command ask for nothing. -/
inductive RequestFault where
  /-- They are not of the form of the command; the text tells the user. -/
  | usage (report : Text)
  /-- A path with a NUL in it can be followed nowhere, not even to be refused. -/
  | nulInRoot
  deriving DecidableEq, Repr

structure Toolkit where
  /-- Sets the variables of an environment file that are not set yet, up to a fault. -/
  loadFile : Workspace → Path → Variables → Variables × Option LoadingFault
  /-- What the arguments of the program ask for, or a text that tells why they ask for nothing. -/
  call : List Text → Except Text Call
  /-- What the arguments of a command ask for. -/
  request : Workspace → CommandName → List Text → Except RequestFault Request
  /-- What is told of the program or a command on request. -/
  help : Callee → Text
  /-- How a message about the use of a command is told. -/
  usageReport : Callee → Text → Text
  /-- How a message about anything else is told. -/
  errorLine : Text → Text
  /-- What is written when an interrupt arrives. -/
  interruptLine : Text
  /-- A text as it is written where no terminal reads it. -/
  plain : Text → Text

end FileCoverage.CommandLine

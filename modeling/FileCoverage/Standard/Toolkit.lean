import FileCoverage.CommandLine.Toolkit
import FileCoverage.Standard.ControlSequence
import FileCoverage.Standard.EnvLoader
import FileCoverage.Standard.Request

/-!
# A toolkit

The toolkit with which the program is run.  It stands in for libraries that are no part of the
program.  That it is lawful is all that is said of it, apart from how the small project runs.
-/

namespace FileCoverage.CommandLine

/-- What a fault in the arguments of a command is to the program. -/
def ArgumentFault.toRequestFault (name : CommandName) : ArgumentFault → RequestFault
  | usage fault => .usage (fault.report (.command name))
  | nulInRoot => .nulInRoot

def Toolkit.standard : Toolkit where
  loadFile := EnvFile.loadFile
  call arguments := (Call.ofArguments arguments).mapError (UsageFault.report .program)
  request ws name arguments :=
    (name.request ws arguments).mapError (ArgumentFault.toRequestFault name)
  help := Callee.usage
  usageReport := CommandLine.usageReport
  errorLine := CommandLine.errorLine
  interruptLine := "\n"
  plain := Text.withoutSequences

end FileCoverage.CommandLine

import FileCoverage.CommandLine.Command
import FileCoverage.Text.Quoted

/-!
# Usage

How the program and its commands are called, and what is said of a call that is not of that form.
-/

namespace FileCoverage.CommandLine

def commandNames : List (Text × CommandName) :=
  [("run", .run), ("regenerate", .regenerate), ("check-test-files", .checkTestFiles)]

def CommandName.toText : CommandName → Text
  | .run => "run"
  | .regenerate => "regenerate"
  | .checkTestFiles => "check-test-files"

def Callee.words : Callee → Text
  | .program => "runcov"
  | .command name => "runcov " ++ name.toText

def Callee.parameters : Callee → Text
  | .program => "[OPTIONS] COMMAND [ARGS]..."
  | .command .run => "[OPTIONS] REPO_ROOT SOURCE_PATH [OPTIONS]..."
  | .command .regenerate | .command .checkTestFiles => "[OPTIONS] REPO_ROOT"

def Callee.usage (callee : Callee) : Text :=
  "Usage: " ++ callee.words ++ " " ++ callee.parameters ++ "\n"

/-- What is wrong with the arguments of a call. -/
inductive UsageFault where
  | missingCommand
  /-- No command has this name; names that are similar are given. -/
  | noSuchCommand (name : Text) (similar : List Text)
  /-- No option has this name; names that are similar are given. -/
  | noSuchOption (name : Text) (similar : List Text)
  | optionTakesNoValue (name : Text)
  | optionNeedsValue (name : Text)
  | missingArgument (name : Text)
  | rootMissing (path : Text)
  | rootIsFile (path : Text)
  | extraArguments (arguments : List Text)
  deriving DecidableEq, Repr

/-- Names in a hint, or nothing if there are none. -/
def similarHint : List Text → Text
  | [] => []
  | [name] => " Did you mean " ++ Text.quoted name ++ "?"
  | names => " (Did you mean one of: " ++ Text.join ", " (names.map Text.quoted) ++ "?)"

/-- The wording of a value of the repository root that cannot be used. -/
def rootMessage (path reason : Text) : Text :=
  "Invalid value for 'REPO_ROOT': Directory " ++ Text.quoted path ++ reason

def UsageFault.message : UsageFault → Text
  | .missingCommand => "Missing command."
  | .noSuchCommand name similar =>
    "No such command " ++ Text.quoted name ++ "." ++ similarHint similar
  | .noSuchOption name similar =>
    "No such option " ++ Text.quoted name ++ "." ++ similarHint similar
  | .optionTakesNoValue name => "Option " ++ Text.quoted name ++ " does not take a value."
  | .optionNeedsValue name => "Option " ++ Text.quoted name ++ " requires an argument."
  | .missingArgument name => "Missing argument '" ++ name ++ "'."
  | .rootMissing path => rootMessage path " does not exist."
  | .rootIsFile path => rootMessage path " is a file."
  | .extraArguments arguments =>
    (if arguments.length = 1 then "Got unexpected extra argument (".toList
      else "Got unexpected extra arguments (".toList) ++ Text.join " " arguments ++ ")"

/-- Whether the fault is reported without the form of the call. -/
def UsageFault.isBare : UsageFault → Bool
  | .optionTakesNoValue _ | .optionNeedsValue _ => true
  | _ => false

def errorLine (message : Text) : Text := "Error: " ++ message ++ "\n"

/-- A message after the form of the call. -/
def usageReport (callee : Callee) (message : Text) : Text :=
  callee.usage ++ "Try '" ++ callee.words ++ " --help' for help.\n\n" ++ errorLine message

def UsageFault.report (callee : Callee) (fault : UsageFault) : Text :=
  if fault.isBare then errorLine fault.message else usageReport callee fault.message

end FileCoverage.CommandLine

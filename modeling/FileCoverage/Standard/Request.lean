import FileCoverage.FileTree.Workspace
import FileCoverage.Standard.Scan

/-!
# Requests

The arguments of the program name one of its commands and give the parameters of that command.
-/

namespace FileCoverage.CommandLine

def helpOption : Text := "--help"

def jsonOption : Text := "--json"

def extensionOption : Text := "--extension"

/-- The extension of the files to check, if none is given. -/
def defaultExtension : Text := ".kt"

def verboseOption : Text := "--verbose"

/-- The letter that stands for the option by which the program tells more. -/
def verboseLetter : Char := 'v'

def programForm : Form := ⟨[verboseLetter], [verboseOption, helpOption], [], false, false⟩

def CommandName.form : CommandName → Form
  | .run => ⟨[], [helpOption], [], true, true⟩
  | .regenerate => ⟨[], [jsonOption, helpOption], [], false, true⟩
  | .checkTestFiles => ⟨[], [helpOption], [extensionOption], false, true⟩

/-! ### The repository root -/

def namesDirectory (path : Text) : Bool :=
  match (Text.splitOn '/' path).getLast? with
  | some last => last.isEmpty || last == ['.']
  | none => false

def isFileArgument (ws : Workspace) (path : Text) : Bool :=
  ws.isFile (Path.ofText path) && !namesDirectory path

def isDirectoryArgument (ws : Workspace) (path : Text) : Bool :=
  path != [] && ws.isDirectory (Path.ofText path)

/-- What is wrong with the arguments of a command. -/
inductive ArgumentFault where
  | usage (fault : UsageFault)
  | nulInRoot
  deriving DecidableEq, Repr

/-- Why a path cannot be the repository root, which need not exist unless `required`. -/
def rootFault? (ws : Workspace) (required : Bool) (path : Text) : Option ArgumentFault :=
  if '\x00' ∈ path then some .nulInRoot
  else if isFileArgument ws path then some (.usage (.rootIsFile path))
  else if required && !isDirectoryArgument ws path then some (.usage (.rootMissing path))
  else none

/-! ### Commands -/

def takeRoot (ws : Workspace) (required : Bool) :
    List Text → Except ArgumentFault (Text × List Text)
  | [] => .error (.usage (.missingArgument "REPO_ROOT"))
  | root :: rest =>
    match rootFault? ws required root with
    | some fault => .error fault
    | none => .ok (root, rest)

/-- The root, if it is the only argument. -/
def onlyRoot (ws : Workspace) (required : Bool) (arguments : List Text) :
    Except ArgumentFault Text :=
  match takeRoot ws required arguments with
  | .error fault => .error fault
  | .ok (root, []) => .ok root
  | .ok (_, extra) => .error (.usage (.extraArguments extra))

/-- The value of an option, the last if it is given several times. -/
def Scanned.valueOf? (s : Scanned) (name : Text) : Option Text := s.options.reverse.lookup name

def Scanned.has (s : Scanned) (name : Text) : Bool := (s.valueOf? name).isSome

def Scanned.isVerbose (s : Scanned) : Bool :=
  s.has verboseOption || s.has (shortName verboseLetter)

/-- What the arguments of a command ask for, once they have been scanned. -/
def CommandName.requestOf (ws : Workspace) (s : Scanned) :
    CommandName → Except ArgumentFault Request
  | .run =>
    match takeRoot ws false s.arguments with
    | .error fault => .error fault
    | .ok (_, []) => .error (.usage (.missingArgument "SOURCE_PATH"))
    | .ok (root, source :: options) => .ok (.run root source options)
  | .regenerate =>
    (onlyRoot ws false s.arguments).map fun root => .regenerate root (s.has jsonOption)
  | .checkTestFiles =>
    (onlyRoot ws true s.arguments).map fun root =>
      .checkTestFiles root ((s.valueOf? extensionOption).getD defaultExtension)

def CommandName.request (ws : Workspace) (name : CommandName) (arguments : List Text) :
    Except ArgumentFault Request :=
  match scan name.form arguments with
  | .error fault => .error (.usage fault)
  | .ok s => if s.has helpOption then .ok (.help (.command name)) else name.requestOf ws s

/--
What is wrong with arguments of which the first names no command.  It may name an option where no
more options follow, and then it is scanned as one first.
-/
def unknownCommand (arguments : List Text) (name : Text) : Except UsageFault Call :=
  match scan programForm arguments with
  | .error fault => .error fault
  | .ok s =>
    if s.has helpOption then .ok .help
    else .error (.noSuchCommand name (similarTo name (commandNames.map (·.1))))

def Call.ofArguments (arguments : List Text) : Except UsageFault Call :=
  match scan programForm arguments with
  | .error fault => .error fault
  | .ok s =>
    if s.has helpOption then .ok .help
    else match s.arguments with
      | [] => .error .missingCommand
      | name :: rest =>
        match commandNames.lookup name with
        | some found => .ok (.command s.isVerbose found rest)
        | none => unknownCommand s.arguments name

end FileCoverage.CommandLine

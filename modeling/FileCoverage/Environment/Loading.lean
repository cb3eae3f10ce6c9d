import FileCoverage.Environment.Variables
import FileCoverage.FileTree.Workspace

/-!
# Loading an environment file

The environment file is the nearest `.env` in the working directory or one of the nine directories
above it.  It is not even looked for if the environment says so.
-/

namespace FileCoverage

/-- Why an environment file cannot be loaded. -/
inductive LoadingFault where
  | undecodable (fault : Utf8.Fault)
  /-- A name with an equals sign in it. -/
  | illegalName
  /-- A NUL in a name or a value. -/
  | nulCharacter
  deriving DecidableEq, Repr

def LoadingFault.message : LoadingFault → Text
  | .undecodable fault => fault.message
  | .illegalName => "illegal environment variable name"
  | .nulCharacter => "embedded null byte"

namespace EnvFile

def fileName : Text := ".env"

def searchDepth : Nat := 10

def offWords : List Text := ["1", "true", "yes"]

/-- The text of a variable, empty if it is not set. -/
def textOf (vars : Variables) (name : Text) : Text := (vars.get? name).getD []

/-- Whether the environment says that no file is to be loaded. -/
def isDisabled (vars : Variables) : Bool :=
  textOf vars "PYTEST_CURRENT_TEST" != []
    || offWords.contains (Text.lower (textOf vars "RUNCOV_DISABLE_DOTENV"))

/-- The places where the file may be, the nearest first. -/
def candidates (ws : Workspace) : List Path :=
  (List.range (min searchDepth (ws.workingDirectory.length + 1))).map fun up =>
    ⟨.root, ws.workingDirectory.take (ws.workingDirectory.length - up) ++ [fileName]⟩

def nearest? (ws : Workspace) : Option Path := (candidates ws).find? ws.holds

/--
The variables after loading the nearest file by `loadFile`, and the fault that ended it, if one did.
-/
def load (loadFile : Workspace → Path → Variables → Variables × Option LoadingFault)
    (ws : Workspace) (vars : Variables) : Variables × Option LoadingFault :=
  if isDisabled vars then (vars, none)
  else match nearest? ws with
    | none => (vars, none)
    | some path => loadFile ws path vars

end EnvFile

end FileCoverage

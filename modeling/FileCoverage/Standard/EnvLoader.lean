import FileCoverage.Environment.Loading
import FileCoverage.Standard.Interpolation

/-!
# Loading the bindings of a file

The bindings of an environment file set variables that the environment does not have; a variable
that is set keeps its text.  The file is not even read if the environment says so.
-/

namespace FileCoverage.EnvFile

/-- The letters that stand for the words by which a file is passed over. -/
def offLetters : List Text := ["t", "y"]

/-- Whether the environment says that no file is to be read. -/
def isPassedOver (vars : Variables) : Bool :=
  (offWords ++ offLetters).contains (Text.fold (textOf vars "PYTHON_DOTENV_DISABLED"))

/-- The bindings of a file; a directory binds nothing. -/
def readBindings (ws : Workspace) (path : Path) : Except LoadingFault (List Binding) :=
  match ws.readText path with
  | .ok t => .ok (fileBindings t)
  | .error (.undecodable fault) => .error (.undecodable fault)
  | .error _ => .ok []

/-- Sets a variable to the value of a binding, if it has one and the variable is not set. -/
def setNew (vars : Variables) (name : Text) : Option Text → Except LoadingFault Variables
  | none => .ok vars
  | some value =>
    if (vars.get? name).isSome then .ok vars
    else if '\x00' ∈ name ∨ '\x00' ∈ value then .error .nulCharacter
    else if '=' ∈ name then .error .illegalName
    else .ok (vars.set name value)

/-- Sets the new variables in order, up to the first that cannot be set. -/
def setAll (vars : Variables) :
    List (Text × Option Text) → Variables × Option LoadingFault
  | [] => (vars, none)
  | (name, value) :: rest =>
    match setNew vars name value with
    | .ok vars => setAll vars rest
    | .error fault => (vars, some fault)

/-- The variables after loading a file, and the fault that ended it, if one did. -/
def loadFile (ws : Workspace) (path : Path) (vars : Variables) :
    Variables × Option LoadingFault :=
  if isPassedOver vars then (vars, none)
  else match readBindings ws path with
    | .error fault => (vars, some fault)
    | .ok bindings => setAll vars (resolve vars bindings)

end FileCoverage.EnvFile

import FileCoverage.Exemption.TextForm
import FileCoverage.FileTree.Workspace
import FileCoverage.Json.Display
import FileCoverage.Json.Printer
import FileCoverage.Json.Reader

/-!
# Exemptions as a JSON dataset

The dataset is an object with a list of entries.  Each entry is an object with a path that is not
blank and two flags, which are false where they are absent; other members do not matter.  The path
is brought to its normal form.

A dataset that is not there exempts nothing.
-/

namespace FileCoverage

/-- Why a JSON value is no dataset. -/
inductive DatasetFault where
  | notObject
  | notList
  | entryNotObject (index : Nat) (entry : Json.Value)
  | missingPath (index : Nat)
  | flagNotBoolean (index : Nat) (path key : Text)
  deriving Repr

def DatasetFault.message : DatasetFault → Text
  | .notObject => "exemption dataset must be a JSON object"
  | .notList => "'" ++ Exemption.listKey ++ "' must be a list"
  | .entryNotObject index entry =>
    "exemption #" ++ Text.ofNat index ++ " is not an object: " ++ Json.display entry
  | .missingPath index =>
    "exemption #" ++ Text.ofNat index ++ " is missing '" ++ Exemption.pathKey ++ "'"
  | .flagNotBoolean index path key =>
    "exemption #" ++ Text.ofNat index ++ " (" ++ path ++ "): '" ++ key ++ "' must be a boolean"

/-- Why the dataset that a path names cannot be used. -/
inductive LoadFault where
  | file (path : Path) (fault : FileFault)
  | json (path : Path) (fault : Json.Fault)
  | dataset (fault : DatasetFault)
  deriving Repr

def LoadFault.message : LoadFault → Text
  | .file path fault =>
    "Failed to read exemptions from " ++ path.toText ++ ": " ++ fault.message
  | .json _ (.numeral fault) => fault.message
  | .json path fault => "Failed to read exemptions from " ++ path.toText ++ ": " ++ fault.message
  | .dataset fault => fault.message

namespace Exemption

def flag? (members : Json.Members) (key : Text) : Option Bool :=
  match members.find? key with
  | none => some false
  | some (.boolean b) => some b
  | some _ => none

def path? (members : Json.Members) : Option Text :=
  match members.find? pathKey with
  | some (.string path) => if Text.isAllBlank path.toText then none else some path.toText
  | _ => none

def flagsOf (index : Nat) (path : Text) (members : Json.Members) :
    Except DatasetFault Exemption :=
  match flag? members testNotRequiredKey, flag? members incompatibleKey with
  | some notRequired, some incompatible => .ok ⟨notRequired, incompatible⟩
  | none, _ => .error (.flagNotBoolean index path testNotRequiredKey)
  | some _, none => .error (.flagNotBoolean index path incompatibleKey)

def ofJson (index : Nat) : Json.Value → Except DatasetFault (Text × Exemption)
  | .object members =>
    match path? members with
    | none => .error (.missingPath index)
    | some path => (flagsOf index path members).map fun e => (RepositoryPath.normalize path, e)
  | v => .error (.entryNotObject index v)

/-- The entries that JSON values stand for, counted from `index` on. -/
def listOfJson (index : Nat) : List Json.Value → Except DatasetFault (List (Text × Exemption))
  | [] => .ok []
  | v :: rest =>
    match ofJson index v with
    | .error fault => .error fault
    | .ok entry => (listOfJson (index + 1) rest).map (entry :: ·)

/-- An entry as a JSON value; flags that are false are left out. -/
def toJson (path : Text) (e : Exemption) : Json.Value :=
  .object ((.ofText pathKey, .string (.ofText path))
    :: e.flagKeys.map fun key => (.ofText key, .boolean true))

end Exemption

namespace Registry

def ofJson : Json.Value → Except DatasetFault Registry
  | .object members =>
    match Json.Members.find? members Exemption.listKey with
    | none => .ok empty
    | some (.array items) => (Exemption.listOfJson 0 items).map ofEntries
    | some _ => .error .notList
  | _ => .error .notObject

def toJson (r : Registry) : Json.Value :=
  .object [(.ofText Exemption.listKey, .array (r.entries.map fun (path, e) => e.toJson path))]

def toJsonText (r : Registry) : Text := Json.print r.toJson

/-- The registry in the JSON text `t` of the file at `path`. -/
def ofJsonText (path : Path) (t : Text) : Except LoadFault Registry :=
  match Json.read t with
  | .error fault => .error (.json path fault)
  | .ok v => (ofJson v).mapError .dataset

def load (ws : Workspace) (path : Path) : Except LoadFault Registry :=
  if ws.holds path then
    match ws.readText path with
    | .error fault => .error (.file path fault)
    | .ok t => ofJsonText path t
  else .ok empty

end Registry

end FileCoverage

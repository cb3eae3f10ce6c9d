import FileCoverage.FileTree.Directory
import FileCoverage.Path.Basic
import FileCoverage.Text.Lines
import FileCoverage.Text.Quoted

/-!
# Workspaces

A workspace is a file tree and the directory in which the program works, from which relative paths
start.  A path is followed name by name: `..` goes back to the folder above, and every name before
the last has to be that of a folder.  The outcome is the place, given by its names from the top, or
the fault that an operating system reports.

No path with a NUL in it can be followed.  The limits that an operating system sets to the lengths
of names and paths are left out, so a path of any length leads where its names do.

A file is emptied when it is opened for writing.  What stops the writing then leaves the bytes that
have been written, and nothing of the content from before.
-/

namespace FileCoverage

/-- Why the place a path names cannot be used. -/
inductive AccessFault where
  | notFound
  | denied
  | exists
  | notDirectory
  | isDirectory
  deriving DecidableEq, Repr

def AccessFault.number : AccessFault → Nat
  | .notFound => 2
  | .denied => 13
  | .exists => 17
  | .notDirectory => 20
  | .isDirectory => 21

def AccessFault.reason : AccessFault → Text
  | .notFound => "No such file or directory"
  | .denied => "Permission denied"
  | .exists => "File exists"
  | .notDirectory => "Not a directory"
  | .isDirectory => "Is a directory"

def AccessFault.message (fault : AccessFault) (path : Text) : Text :=
  "[Errno " ++ Text.ofNat fault.number ++ "] " ++ fault.reason ++ ": " ++ Text.quoted path

/-- Why a file cannot be read or written. -/
inductive FileFault where
  | access (fault : AccessFault) (path : Path)
  | undecodable (fault : Utf8.Fault)
  | nulInPath
  deriving DecidableEq, Repr

def FileFault.message : FileFault → Text
  | .access fault path => fault.message path.toText
  | .undecodable fault => fault.message
  | .nulInPath => "embedded null byte"

/-- What keeps the rest of a content from a file that has been opened for writing. -/
inductive StorageFault where
  | device
  | tooLarge
  | noSpace
  | quota
  deriving DecidableEq, Repr

def StorageFault.number : StorageFault → Nat
  | .device => 5
  | .tooLarge => 27
  | .noSpace => 28
  | .quota => 122

def StorageFault.reason : StorageFault → Text
  | .device => "Input/output error"
  | .tooLarge => "File too large"
  | .noSpace => "No space left on device"
  | .quota => "Disk quota exceeded"

def StorageFault.message (fault : StorageFault) : Text :=
  "[Errno " ++ Text.ofNat fault.number ++ "] " ++ fault.reason

/-- What becomes of a content that is to be written to a file. -/
inductive Fate where
  | written
  /-- The file may not be opened. -/
  | denied
  /-- Writing fails after so many bytes. -/
  | stopped (count : Nat) (fault : StorageFault)
  /-- The program is interrupted after so many bytes. -/
  | interrupted (count : Nat)
  deriving DecidableEq, Repr

/-- What becomes of contents, by the paths of their files. -/
abbrev Storage := Path → Bytes → Fate

/-- Why the writing of a content has not come to its end. -/
inductive WriteFault where
  /-- The file has not been opened. -/
  | file (fault : FileFault)
  | storage (fault : StorageFault)
  | interrupted
  deriving DecidableEq, Repr

/-- A file tree and the place in it where relative paths start. -/
structure Workspace where
  top : Directory
  workingDirectory : List Text
  deriving DecidableEq, Repr

namespace Workspace

def hasNul (p : Path) : Bool := p.names.any (·.contains '\x00')

def start (ws : Workspace) (p : Path) : List Text :=
  if p.isAnchored then [] else ws.workingDirectory

def step (top : Directory) (place : List Text) (name : Text) : Except AccessFault (List Text) :=
  match top.at? place with
  | some (.folder inside) =>
    if name = ".." then .ok place.dropLast
    else if (inside.find? name).isSome then .ok (place ++ [name])
    else .error .notFound
  | some (.file _) => .error .notDirectory
  | none => .error .notFound

def follow (top : Directory) (place : List Text) (names : List Text) :
    Except AccessFault (List Text) :=
  names.foldlM (step top) place

def entry (ws : Workspace) (p : Path) : Except AccessFault Entry :=
  if hasNul p then .error .notFound
  else do
    let place ← follow ws.top (ws.start p) p.names
    match ws.top.at? place with
    | some found => .ok found
    | none => .error .notFound

def holds (ws : Workspace) (p : Path) : Bool := (ws.entry p).isOk

def isFile (ws : Workspace) (p : Path) : Bool :=
  match ws.entry p with
  | .ok (.file _) => true
  | _ => false

def isDirectory (ws : Workspace) (p : Path) : Bool :=
  match ws.entry p with
  | .ok (.folder _) => true
  | _ => false

def readBytes (ws : Workspace) (p : Path) : Except FileFault Bytes :=
  if hasNul p then .error .nulInPath
  else match ws.entry p with
    | .ok (.file content) => .ok content
    | .ok (.folder _) => .error (.access .isDirectory p)
    | .error fault => .error (.access fault p)

/-- The text of the file that a path names, its line breaks unified. -/
def readText (ws : Workspace) (p : Path) : Except FileFault Text := do
  let bytes ← ws.readBytes p
  match Utf8.decode bytes with
  | .ok t => .ok (Text.unifyBreaks t)
  | .error fault => .error (.undecodable fault)

/-- The text of the file, with U+FFFD for what is not UTF-8. -/
def readTextLossy (ws : Workspace) (p : Path) : Except FileFault Text := do
  let bytes ← ws.readBytes p
  return Text.unifyBreaks (Utf8.decodeLossy bytes)

def makeFolder (ws : Workspace) (p : Path) : Except AccessFault Workspace :=
  match p.names.getLast? with
  | none => .error .exists
  | some name => do
    let place ← follow ws.top (ws.start p) p.names.dropLast
    match ws.top.at? place with
    | some (.folder inside) =>
      if name = ".." ∨ (inside.find? name).isSome then .error .exists
      else .ok { ws with top := ws.top.put (.folder .empty) (place ++ [name]) }
    | some (.file _) => .error .notDirectory
    | none => .error .notFound

/--
Makes the folder that a path names, and first the folders above it if they are missing.  A folder
that is already there is left as it is, and the folders that have been made stay where a later one
cannot be made.  The names are those of the path, the last one first.
-/
def makeFoldersAt (ws : Workspace) (anchor : Anchor) :
    (reversed : List Text) → Workspace × Option FileFault
  | [] =>
    let p : Path := ⟨anchor, []⟩
    (ws, if ws.isDirectory p then none else some (.access .notFound p))
  | name :: above =>
    let p : Path := ⟨anchor, (name :: above).reverse⟩
    match ws.makeFolder p with
    | .ok made => (made, none)
    | .error .notFound =>
      match makeFoldersAt ws anchor above with
      | (ws, some fault) => (ws, some fault)
      | (ws, none) =>
        match ws.makeFolder p with
        | .ok made => (made, none)
        | .error fault => (ws, if ws.isDirectory p then none else some (.access fault p))
    | .error fault => (ws, if ws.isDirectory p then none else some (.access fault p))

/-- Makes the folder that a path names and the missing folders above it. -/
def makeFolders (ws : Workspace) (p : Path) : Workspace × Option FileFault :=
  if hasNul p then (ws, some .nulInPath)
  else makeFoldersAt ws p.anchor p.names.reverse

/-- The place of the file that a path names for writing, which need not be there yet. -/
def placeToWrite (ws : Workspace) (p : Path) : Except FileFault (List Text) :=
  if hasNul p then .error .nulInPath
  else match p.names.getLast? with
    | none => .error (.access .isDirectory p)
    | some name =>
      match follow ws.top (ws.start p) p.names.dropLast with
      | .error fault => .error (.access fault p)
      | .ok place =>
        match ws.top.at? place with
        | some (.folder inside) =>
          match inside.find? name with
          | some (.folder _) => .error (.access .isDirectory p)
          | _ => if name = ".." then .error (.access .isDirectory p) else .ok (place ++ [name])
        | some (.file _) => .error (.access .notDirectory p)
        | none => .error (.access .notFound p)

def setContent (ws : Workspace) (place : List Text) (content : Bytes) : Workspace :=
  { ws with top := ws.top.put (.file content) place }

/--
Writes a content to the file that a path names: the workspace after that, and the fault that ended
it, if one did.
-/
def writeBytes (ws : Workspace) (storage : Storage) (p : Path) (content : Bytes) :
    Workspace × Option WriteFault :=
  match ws.placeToWrite p with
  | .error fault => (ws, some (.file fault))
  | .ok place =>
    match storage p content with
    | .written => (ws.setContent place content, none)
    | .denied => (ws, some (.file (.access .denied p)))
    | .stopped count fault => (ws.setContent place (content.take count), some (.storage fault))
    | .interrupted count => (ws.setContent place (content.take count), some .interrupted)

/-- Writes a text to the file that a path names, making the missing folders above it. -/
def writeText (ws : Workspace) (storage : Storage) (p : Path) (t : Text) :
    Workspace × Option WriteFault :=
  match ws.makeFolders p.parent with
  | (ws, some fault) => (ws, some (.file fault))
  | (ws, none) => ws.writeBytes storage p (Utf8.encode t)

end Workspace

end FileCoverage

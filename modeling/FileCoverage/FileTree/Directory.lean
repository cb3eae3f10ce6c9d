import FileCoverage.Text.Utf8

/-!
# Directories

A directory lists its files, each with its content, and its folders, each with the directory inside.
The order of the list is the order in which a file system happens to give the entries.

`find?` looks up one name and `at?` a sequence of names from the top.  `put` sets the entry at such
a sequence whose folders all exist; it changes no other entry, and nothing if a folder is missing.
-/

namespace FileCoverage

inductive Directory where
  | empty
  /-- A file before the other entries. -/
  | file (name : Text) (content : Bytes) (rest : Directory)
  /-- A folder before the other entries. -/
  | folder (name : Text) (inside : Directory) (rest : Directory)
  deriving DecidableEq, Repr

/-- What a name stands for in a directory. -/
inductive Entry where
  | file (content : Bytes)
  | folder (inside : Directory)
  deriving DecidableEq, Repr

namespace Directory

/-- The first entry of the given name. -/
def find? (name : Text) : Directory → Option Entry
  | empty => none
  | file n content rest => if n = name then some (.file content) else find? name rest
  | folder n inside rest => if n = name then some (.folder inside) else find? name rest

@[simp]
theorem find?_empty (name : Text) : empty.find? name = none := rfl

def at? (top : Directory) : List Text → Option Entry
  | [] => some (.folder top)
  | name :: names =>
    match top.find? name with
    | some (.folder inside) => at? inside names
    | some (.file content) => if names = [] then some (.file content) else none
    | none => none

@[simp]
theorem at?_nil (top : Directory) : top.at? [] = some (.folder top) := rfl

/-- The directory with `entry` in front of its entries. -/
def cons (name : Text) (entry : Entry) (rest : Directory) : Directory :=
  match entry with
  | .file content => file name content rest
  | .folder inside => folder name inside rest

/-- Sets the entry of a name: in the place of the old one, or after the others. -/
def set (name : Text) (entry : Entry) : Directory → Directory
  | empty => cons name entry empty
  | file n content rest =>
    if n = name then cons name entry rest else file n content (set name entry rest)
  | folder n inside rest =>
    if n = name then cons name entry rest else folder n inside (set name entry rest)

@[simp]
theorem find?_cons (name other : Text) (entry : Entry) (rest : Directory) :
    (cons name entry rest).find? other = if name = other then some entry else rest.find? other := by
  cases entry <;> rfl

theorem find?_set (name other : Text) (entry : Entry) (d : Directory) :
    (d.set name entry).find? other = if name = other then some entry else d.find? other := by
  induction d with
  | empty => simp [set]
  | file n content rest ih =>
    by_cases h : n = name
    · subst h
      by_cases h' : n = other <;> simp [set, find?, h']
    · by_cases h' : n = other
      · subst h'
        simp [set, find?, h, Ne.symm h]
      · simp [set, find?, h, h', ih]
  | folder n inside rest _ ih =>
    by_cases h : n = name
    · subst h
      by_cases h' : n = other <;> simp [set, find?, h']
    · by_cases h' : n = other
      · subst h'
        simp [set, find?, h, Ne.symm h]
      · simp [set, find?, h, h', ih]

/-- Sets the entry at a sequence of names, if the folders on the way are there. -/
def put (entry : Entry) : List Text → Directory → Directory
  | [], top => top
  | [name], top => top.set name entry
  | name :: names, top =>
    match top.find? name with
    | some (.folder inside) => top.set name (.folder (put entry names inside))
    | _ => top

/-- The files below a directory, each with its names from the top. -/
def files : Directory → List (List Text × Bytes)
  | empty => []
  | file name content rest => ([name], content) :: files rest
  | folder name inside rest =>
    (files inside).map (fun (names, content) => (name :: names, content)) ++ files rest

/-- The files that are new or have another content than in `before`. -/
def changedSince (before after : Directory) : List (List Text × Bytes) :=
  after.files.filter fun (names, content) => before.at? names ≠ some (.file content)

def addFile (content : Bytes) : List Text → Directory → Directory
  | [], top => top
  | [name], top => top.set name (.file content)
  | name :: names, top =>
    match top.find? name with
    | some (.folder inside) => top.set name (.folder (addFile content names inside))
    | some (.file _) => top
    | none => top.set name (.folder (addFile content names empty))

def addFolder : List Text → Directory → Directory
  | [], top => top
  | name :: names, top =>
    match top.find? name with
    | some (.folder inside) => top.set name (.folder (addFolder names inside))
    | some (.file _) => top
    | none => top.set name (.folder (addFolder names empty))

end Directory

end FileCoverage

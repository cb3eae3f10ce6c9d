import FileCoverage.FileTree.Directory

/-!
# Listings

A listing names the files below a directory in an order that does not depend on how the entries
happen to be stored: first the directory's own files by name, then what is in each of its folders,
the folders by name.  Folders that `skip` holds of are passed over with all that is in them.
-/

namespace FileCoverage.Directory

def sortFolders {α : Type} (folders : List (Text × α)) : List (Text × α) :=
  folders.mergeSort fun a b => Text.precedes a.1 b.1

/-- The listing of a directory from the names of its files and the listings of its folders. -/
def assemble (files : List Text) (folders : List (Text × List (List Text))) : List (List Text) :=
  (Text.sorted files).map ([·])
    ++ (sortFolders folders).flatMap fun (name, inside) => inside.map (name :: ·)

/-- The names of the files of a directory and the listings of its folders, as they are stored. -/
def contents (skip : Text → Bool) : Directory → List Text × List (Text × List (List Text))
  | empty => ([], [])
  | file name _ rest =>
    let (files, folders) := contents skip rest
    (name :: files, folders)
  | folder name inside rest =>
    let (files, folders) := contents skip rest
    if skip name then (files, folders)
    else
      let (filesInside, foldersInside) := contents skip inside
      (files, (name, assemble filesInside foldersInside) :: folders)

/-- The files below a directory in listing order, each by its names from there. -/
def listing (skip : Text → Bool) (d : Directory) : List (List Text) :=
  let (files, folders) := contents skip d
  assemble files folders

@[simp]
theorem listing_empty (skip : Text → Bool) : empty.listing skip = [] := by
  simp [listing, contents, assemble, Text.sorted, sortFolders]

end FileCoverage.Directory

import FileCoverage.Exemption.Registry
import FileCoverage.FileTree.Listing
import FileCoverage.FileTree.Workspace
import FileCoverage.Layout.Convention

/-!
# Presence of tests

Every file of production code needs a test somewhere in the repository: a file with the name of the
production file and `Test` after its stem.  Exempt files are left out altogether, and so is what
lies in hidden folders, in the folders that builds link to, and in the folder of reports.
-/

namespace FileCoverage.PresenceCheck

/-- The beginning of the names of the folders that builds link to. -/
def buildFolderMark : Text := "bazel-"

def skipsFolder (reports name : Text) : Bool :=
  ['.'].isPrefixOf name || buildFolderMark.isPrefixOf name || name == reports

def searchedFiles (reports extension : Text) (exempted : List Text) (d : Directory) : List Text :=
  ((d.listing (skipsFolder reports)).filter fun names =>
      extension.isSuffixOf (names.getLastD [])).map (Text.join "/")
    |>.filter (!exempted.contains ·)

/-- The directory that a path names; a path that names none stands for an empty one. -/
def directoryAt (ws : Workspace) (root : Path) : Directory :=
  match ws.entry root with
  | .ok (.folder inside) => inside
  | _ => .empty

def search (ws : Workspace) (root : Path) (reports extension : Text) (registry : Registry) :
    List Text :=
  searchedFiles reports extension registry.paths (directoryAt ws root)

/-- The files of production code, among others, that have no test among them. -/
def withoutTest (extension : Text) (files : List Text) : List Text :=
  let (tests, production) := files.partition fun file => Layout.isTestFile file (some extension)
  let names := tests.map fun file => (Path.ofText file).name
  Text.sorted (production.filter fun file => !names.contains (Layout.expectedTestName file))

/-- The files of a repository that have no test. -/
def missingTests (ws : Workspace) (root : Path) (reports extension : Text) (registry : Registry) :
    List Text :=
  withoutTest extension (search ws root reports extension registry)

end FileCoverage.PresenceCheck

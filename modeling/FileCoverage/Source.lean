import FileCoverage.FileTree.Workspace
import FileCoverage.Path.Repository

/-!
# Source files

A source file is read from the repository by its path: its text is UTF-8, and its lines end at CR,
LF or CR LF.
-/

namespace FileCoverage

structure SourceFile where
  path : Text
  lines : List Text
  deriving DecidableEq, Repr

namespace SourceFile

/-- The first folder on the path of a file, or nothing for a file at the root. -/
def moduleRoot (source : SourceFile) : Text :=
  match (Path.ofText source.path).pieces with
  | root :: _ :: _ => root
  | _ => []

/-- Reads the file that the path names, in any of its spellings. -/
def read (ws : Workspace) (root : Path) (path : Text) : Except FileFault SourceFile := do
  let path := RepositoryPath.normalize path
  let t ← ws.readText (root.child path)
  return ⟨path, Text.sourceLines t⟩

end SourceFile

end FileCoverage

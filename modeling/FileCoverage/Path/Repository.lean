import FileCoverage.Path.Basic
import FileCoverage.Text.Blank

/-!
# Repository paths

A file of the repository is named by its path from the root, written with slashes.  `normalize`
brings other spellings to that form: it trims blanks, turns backslashes into slashes and drops
`./` and `/` at the start.  Only the start is touched, so one file still has several spellings.
-/

namespace FileCoverage.RepositoryPath

/-- Drops `./` from the start as often as it is there. -/
def dropDots : Text → Text
  | '.' :: '/' :: rest => dropDots rest
  | t => t

@[simp]
theorem dropDots_nil : dropDots [] = [] := rfl

/-- The path from the repository root, without `./` or `/` in front. -/
def normalize (t : Text) : Text :=
  (dropDots ((Text.trim t).map fun c => if c = '\\' then '/' else c)).dropWhile (· = '/')

@[simp]
theorem normalize_nil : normalize [] = [] := rfl

def path (t : Text) : Path := Path.ofText (normalize t)

end FileCoverage.RepositoryPath

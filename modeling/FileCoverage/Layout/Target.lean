import FileCoverage.Path.Basic

/-!
# Test targets

A test target is one test file that exercises a source file.  Its label is the name under which a
build tool knows it: its folder after two slashes, a colon and the stem of its name.
-/

namespace FileCoverage

inductive TestKind where
  | standard
  | localTest
  /-- A kind that the naming conventions do not produce. -/
  | other (name : Text)
  deriving DecidableEq, Repr

def TestKind.name : TestKind → Text
  | .standard => "standard"
  | .localTest => "local"
  | .other name => name

/-- A test file, the folder of tests that it belongs to, and its kind. -/
structure TestTarget where
  testPath : Text
  testRoot : Text
  kind : TestKind
  deriving DecidableEq, Repr

def TestTarget.label (target : TestTarget) : Text :=
  let p := Path.ofText target.testPath
  "//" ++ p.parent.toText ++ ":" ++ p.stem

end FileCoverage

import FileCoverage.Exemption.Registry
import FileCoverage.FileTree.Workspace
import FileCoverage.Layout.Convention

/-!
# Resolution

A source file is resolved to the tests that exist for it.  A file that is left out of coverage
analysis is skipped, and so is one without tests that needs none.
-/

namespace FileCoverage

inductive SkipReason where
  | coverageExempt
  | testNotRequired
  deriving DecidableEq, Repr

def SkipReason.name : SkipReason → Text
  | .coverageExempt => "coverage exempt"
  | .testNotRequired => "test not required"

def SkipReason.message : SkipReason → Text
  | .coverageExempt =>
    "This file is incompatible with code coverage analysis; skipping coverage check."
  | .testNotRequired =>
    "This file is exempted from having a test file; skipping coverage check."

/-- The tests of a source file, or why it has none to run. -/
inductive Resolution where
  | targets (targets : List TestTarget)
  | skip (reason : SkipReason)
  deriving DecidableEq, Repr

/-- Why a source file cannot be resolved. -/
inductive ResolutionFault where
  | sourceNotFound (path : Text)
  | missingTest (path : Text)
  deriving DecidableEq, Repr

def ResolutionFault.message : ResolutionFault → Text
  | .sourceNotFound path => "File doesn't exist: " ++ path ++ "."
  | .missingTest path => "No appropriate test file found for " ++ path ++ "."

/-- A repository: where it is, what is exempt in it, and where its tests are. -/
structure Repository where
  root : Path
  registry : Registry
  rules : List LayoutRule

namespace Repository

def hasFile (repo : Repository) (ws : Workspace) (path : Text) : Bool :=
  ws.isFile (repo.root.child path)

def existingTargets (repo : Repository) (ws : Workspace) (path : Text) : List TestTarget :=
  (Layout.testCandidates repo.rules path).filter fun target => repo.hasFile ws target.testPath

def resolve (repo : Repository) (ws : Workspace) (path : Text) :
    Except ResolutionFault Resolution :=
  let path := RepositoryPath.normalize path
  if !repo.hasFile ws path then .error (.sourceNotFound path)
  else if repo.registry.isCoverageExempt path then .ok (.skip .coverageExempt)
  else match repo.existingTargets ws path with
    | [] =>
      if repo.registry.requiresTestFile path then .error (.missingTest path)
      else .ok (.skip .testNotRequired)
    | targets => .ok (.targets targets)

end Repository

end FileCoverage

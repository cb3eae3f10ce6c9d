import FileCoverage.Layout.Target
import FileCoverage.Path.Repository

/-!
# Where tests are

A layout rule names the folder of production code and the folders of its tests: the tests of a file
are found by exchanging the one folder for the others.  Of several rules that apply to a path, the
one whose folder is nearest to the root is taken, and the first of those at one place.

The test of `Name.kt` is `NameTest.kt`, or `NameLocalTest.kt` for a local test.
-/

namespace FileCoverage

/-- A folder of production code and the folders of its tests. -/
structure LayoutRule where
  sourceFolder : Text
  testFolders : List Text
  deriving DecidableEq, Repr

namespace Layout

/-- The rules of a repository that says nothing else. -/
def defaultRules : List LayoutRule :=
  [⟨"main", ["test", "sharedTest"]⟩, ⟨"java", ["javatests"]⟩]

def testSuffix : Text := "Test"

def localTestSuffix : Text := "LocalTest"

/-- The ends of the stems of tests, with the kinds that they mark. -/
def variants : List (Text × TestKind) := [(testSuffix, .standard), (localTestSuffix, .localTest)]

/-- The place of a folder among the pieces of a path; the last piece is the file. -/
def folderIndex? (pieces : List Text) (folder : Text) : Option Nat := pieces.dropLast.idxOf? folder

/-- The nearer of two places, the first if they are equally near. -/
def nearer {α : Type} : Option (α × Nat) → Option (α × Nat) → Option (α × Nat)
  | some (a, i), some (b, j) => if j < i then some (b, j) else some (a, i)
  | none, found => found
  | found, none => found

/-- The candidate whose folder is nearest to the root, with its place, the first of several. -/
def nearest {α : Type} (pieces : List Text) (candidates : List (Text × α)) : Option (α × Nat) :=
  candidates.foldl
    (fun best (folder, a) => nearer best ((folderIndex? pieces folder).map fun i => (a, i))) none

/-- The rule for a source path, with the place of its folder. -/
def sourceRule? (rules : List LayoutRule) (pieces : List Text) : Option (LayoutRule × Nat) :=
  nearest pieces (rules.map fun rule => (rule.sourceFolder, rule))

/-- The rule for a test path, with the place of its folder. -/
def testRule? (rules : List LayoutRule) (pieces : List Text) : Option (LayoutRule × Nat) :=
  nearest pieces (rules.flatMap fun rule => rule.testFolders.map fun folder => (folder, rule))

/-- The folders of a path with another one in the given place. -/
def exchange (pieces : List Text) (place : Nat) (folder : Text) : List Text :=
  pieces.take place ++ folder :: (pieces.drop (place + 1)).dropLast

/-- The file `stem ++ ending ++ suffix` in the folders that the pieces name. -/
def sibling (folders : List Text) (stem ending suffix : Text) : Text :=
  (Path.ofPieces (folders ++ [stem ++ ending ++ suffix])).toText

/-- The targets, each test path once, in the order of their first occurrences. -/
def distinct (targets : List TestTarget) : List TestTarget :=
  targets.foldl
    (fun kept target => if kept.any (·.testPath = target.testPath) then kept else kept ++ [target])
    []

/-- The tests of a file in the folders of a rule that was found at a place. -/
def candidatesAt (p : Path) (rule : LayoutRule) (place : Nat) : List TestTarget :=
  distinct <| rule.testFolders.flatMap fun folder =>
    variants.map fun (ending, kind) =>
      ⟨sibling (exchange p.pieces place folder) p.stem ending p.suffix, folder, kind⟩

/-- The test files that a source file may have, in the order of preference. -/
def testCandidates (rules : List LayoutRule) (path : Text) : List TestTarget :=
  let p := RepositoryPath.path path
  match sourceRule? rules p.pieces with
  | none => []
  | some (rule, place) => candidatesAt p rule place

/-- The text before an ending, if it ends so. -/
def beforeEnding? (ending t : Text) : Option Text :=
  if ending.isSuffixOf t then some (t.take (t.length - ending.length)) else none

/-- The stem of the source file that a test with the given stem is for. -/
def testedStem? (stem : Text) : Option Text :=
  match (beforeEnding? localTestSuffix stem).or (beforeEnding? testSuffix stem) with
  | some [] => none
  | base => base

def sourceForTest? (rules : List LayoutRule) (path : Text) : Option Text :=
  let p := RepositoryPath.path path
  match testedStem? p.stem, testRule? rules p.pieces with
  | some base, some (rule, place) =>
    some (sibling (exchange p.pieces place rule.sourceFolder) base [] p.suffix)
  | _, _ => none

/-- Whether a file is a test, by its name; with an extension, only files of that extension are. -/
def isTestFile (path : Text) (extension : Option Text) : Bool :=
  let p := RepositoryPath.path path
  match extension with
  | some wanted => p.suffix == wanted && testSuffix.isSuffixOf p.stem
  | none => testSuffix.isSuffixOf p.stem

def expectedTestName (path : Text) : Text :=
  let p := RepositoryPath.path path
  p.stem ++ testSuffix ++ p.suffix

end Layout

end FileCoverage

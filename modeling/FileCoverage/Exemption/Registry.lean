import FileCoverage.KeyedList
import FileCoverage.Path.Repository

/-!
# Exemptions

Single files of a repository may be exempt: from the rule that every file has a test, or from
coverage analysis.  The registry holds the exempt files by their repository paths, each once, in the
order in which they were first listed; the exemption listed last for a path is the one that counts.

A path is looked up in its normal form.  The paths in the registry are kept as they were given, so
one that is not in normal form is never found.
-/

namespace FileCoverage

structure Exemption where
  testFileNotRequired : Bool
  incompatibleWithCoverage : Bool
  deriving DecidableEq, Repr

def Exemption.nothing : Exemption := ⟨false, false⟩

structure Registry where
  entries : KeyedList Text Exemption
  nodup_paths : (KeyedList.keys entries).Nodup
  deriving DecidableEq, Repr

namespace Registry

/-- The registry in which the entries are listed one after the other. -/
def ofEntries (entries : List (Text × Exemption)) : Registry :=
  ⟨KeyedList.ofPairs entries, KeyedList.nodup_keys_ofPairs entries⟩

def empty : Registry := ofEntries []

def lookup (r : Registry) (path : Text) : Exemption :=
  (KeyedList.get? (RepositoryPath.normalize path) r.entries).getD .nothing

def requiresTestFile (r : Registry) (path : Text) : Bool := !(r.lookup path).testFileNotRequired

def isCoverageExempt (r : Registry) (path : Text) : Bool :=
  (r.lookup path).incompatibleWithCoverage

def paths (r : Registry) : List Text := KeyedList.keys r.entries

def size (r : Registry) : Nat := r.entries.length

/-- The same files, each of them exempt from having a test and from nothing else. -/
def regenerate (r : Registry) : Registry :=
  ofEntries (r.paths.map fun path => (path, ⟨true, false⟩))

@[simp]
theorem lookup_empty (path : Text) : empty.lookup path = .nothing := rfl

end Registry

end FileCoverage

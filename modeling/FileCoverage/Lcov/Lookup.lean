import FileCoverage.Lcov.Tracefile
import FileCoverage.Path.Repository

/-!
# Looking up a source file

A record may name its source by the repository path or by a longer path that ends with it, as tools
do that run in a directory of their own.  All records of one source file count together.
-/

namespace FileCoverage.Lcov

def refersTo (recorded wanted : Text) : Bool :=
  let recorded := RepositoryPath.normalize recorded
  let wanted := RepositoryPath.normalize wanted
  recorded == wanted || ('/' :: wanted).isSuffixOf recorded

def matching (records : List Record) (path : Text) : List Record :=
  records.filter fun r => refersTo r.source path

/-- The sum of records, under the path of the first. -/
def combine? : List Record → Option Record
  | [] => none
  | [r] => some r
  | r :: more => some ⟨r.source, ((r :: more).map (·.hits)).foldl Hits.sum Hits.none⟩

/-- What the records say about a source path, if any of them refers to it. -/
def find? (records : List Record) (path : Text) : Option Record := combine? (matching records path)

theorem find?_eq_none_iff (records : List Record) (path : Text) :
    find? records path = none ↔ matching records path = [] := by
  rw [find?]
  generalize matching records path = found
  match found with
  | [] => simp [combine?]
  | [_] => simp [combine?]
  | _ :: _ :: _ => simp [combine?]

theorem find?_singleton_eq_none_iff (r : Record) (path : Text) :
    find? [r] path = none ↔ refersTo r.source path = false := by
  rw [find?_eq_none_iff, matching, List.filter_eq_nil_iff]
  simp

end FileCoverage.Lcov

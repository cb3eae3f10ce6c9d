import FileCoverage.Proofs.CanonicalPath
import FileCoverage.Proofs.RecordSum

/-!
# Which records count for a source file

A record counts for a source file if its path ends with the path of the file, since tools that run
in a directory of their own write longer paths.  So a file is kept apart from the records of another
file of the repository unless the names of the other end with its own: `main/B.kt` never counts for
`main/A.kt`, but `app/main/A.kt` does.
-/

namespace FileCoverage

namespace Lcov

/-- The records whose source is not written as `q`. -/
def apart (q : Text) (records : List Record) : List Record := records.filter (·.source ≠ q)

theorem matching_apart {p q : Text} (other : refersTo q p = false) (records : List Record) :
    matching (apart q records) p = matching records p := by
  rw [matching, apart, List.filter_filter, matching]
  apply List.filter_congr
  intro r _
  by_cases same : r.source = q
  · rw [same, other, Bool.false_and]
  · rw [decide_eq_true same, Bool.and_true]

/-- Records written as `q` leave what is found for `p` as it is if `q` does not refer to `p`. -/
theorem find?_eq_of_apart_iff (p q : Text) :
    (∀ records records', apart q records = apart q records' →
      find? records p = find? records' p) ↔ refersTo q p = false := by
  constructor
  · intro isolated
    rw [← find?_singleton_eq_none_iff ⟨q, Hits.none⟩]
    exact isolated [⟨q, Hits.none⟩] [] (by simp [apart])
  · intro other records records' same
    rw [find?, find?, ← matching_apart other records, ← matching_apart other records', same]

open RepositoryPath in
theorem refersTo_eq_false_iff {p q : Text} (canonical : IsCanonical p)
    (canonical' : IsCanonical q) :
    refersTo q p = false ↔ ¬ (Path.ofText p).names <:+ (Path.ofText q).names := by
  rw [← Bool.not_eq_true, refersTo_iff ⟨q, Hits.none⟩, Record.IsOf, canonical.normal,
    canonical'.normal, canonical.splitOn_eq, canonical'.splitOn_eq]

open RepositoryPath in
/--
Records of one file of the repository, added, taken out or changed, leave what is found for another
file as it is exactly if the names of the one do not end with the names of the other.
-/
theorem find?_isolated_iff {p q : Text} (canonical : IsCanonical p) (canonical' : IsCanonical q) :
    (∀ records records', apart q records = apart q records' →
      find? records p = find? records' p) ↔
    ¬ (Path.ofText p).names <:+ (Path.ofText q).names := by
  rw [find?_eq_of_apart_iff, refersTo_eq_false_iff canonical canonical']

open RepositoryPath in
/-- A file and another whose last name merely ends with the name of the first. -/
theorem find?_isolated_of_longer_name :
    IsCanonical "main/A.kt" ∧ IsCanonical "main/BA.kt" ∧
    ∀ records records', apart "main/BA.kt" records = apart "main/BA.kt" records' →
      find? records "main/A.kt" = find? records' "main/A.kt" := by
  have canonical : IsCanonical "main/A.kt" := by decide
  have canonical' : IsCanonical "main/BA.kt" := by decide
  exact ⟨canonical, canonical', (find?_isolated_iff canonical canonical').2 (by decide)⟩

open RepositoryPath in
/-- A file at the root of the repository is given the counts of a file further down. -/
theorem find?_not_isolated_of_longer_path :
    IsCanonical "A.kt" ∧ IsCanonical "main/A.kt" ∧ ("A.kt" : Text) ≠ "main/A.kt" ∧
    apart "main/A.kt" [⟨"main/A.kt", Hits.none.add 1 1⟩] = apart "main/A.kt" [] ∧
    find? [⟨"main/A.kt", Hits.none.add 1 1⟩] "A.kt" = some ⟨"main/A.kt", Hits.none.add 1 1⟩ ∧
    find? [] "A.kt" = none := by
  decide

end Lcov

end FileCoverage

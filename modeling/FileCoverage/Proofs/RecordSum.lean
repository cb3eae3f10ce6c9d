import FileCoverage.Proofs.LineEvidence
import FileCoverage.Proofs.Pieces
import Mathlib.Algebra.BigOperators.Group.List.Basic
import Mathlib.Algebra.Ring.Nat

/-!
# Records of one source file add up

A record is of a source file if the pieces of its path, between slashes, end with those of the path
of the file.  The counts that such records give a line are added up, whatever order the records come
in.  The state of a line by the sum is the strongest of its states by the single records, so adding
up counts inside a tracefile and merging states across targets say the same.
-/

namespace FileCoverage

theorem LineState.eq_of_iff {a b : LineState} (covered : a = .covered ↔ b = .covered)
    (unknown : a = .unknown ↔ b = .unknown) : a = b := by
  cases a <;> cases b <;> simp_all

namespace Hits

/-- The sum of counts, if there are any. -/
def total? : List Nat → Option Nat
  | [] => Option.none
  | count :: more => some (count :: more).sum

theorem total?_add (a b : Nat) (more : List Nat) :
    total? ((a + b) :: more) = total? (a :: b :: more) := by
  simp only [total?, List.sum_cons, Nat.add_assoc]

theorem total?_perm {counts counts' : List Nat} (perm : counts.Perm counts') :
    total? counts = total? counts' := by
  cases counts with
  | nil => rw [List.nil_perm.1 perm]
  | cons count more =>
      cases counts' with
      | nil => exact absurd perm.length_eq (by simp)
      | cons count' more' => rw [total?, total?, perm.sum_eq]

theorem get?_foldl_sum (start : Hits) (more : List Hits) (line : Int) :
    (more.foldl sum start).get? line =
      total? ((start.get? line).toList ++ more.filterMap (·.get? line)) := by
  induction more generalizing start with
  | nil => cases known : start.get? line <;> simp [total?, known]
  | cons hits more ih =>
      rw [List.foldl_cons, ih, get?_sum, List.filterMap_cons]
      cases hits.get? line with
      | none => rfl
      | some count =>
          cases start.get? line with
          | none => simp
          | some known => exact total?_add known count _

end Hits

namespace Lcov

theorem get?_of_combine? {records : List Record} {record : Record}
    (combined : combine? records = some record) (line : Int) :
    record.hits.get? line = Hits.total? (records.filterMap (·.hits.get? line)) := by
  rw [combine?.eq_def] at combined
  split at combined
  · cases combined
  · next r =>
      obtain rfl := Option.some.inj combined
      cases listed : r.hits.get? line <;> simp [Hits.total?, listed]
  · obtain rfl := Option.some.inj combined
    rw [Hits.get?_foldl_sum, List.filterMap_map]
    rfl

theorem exists_combine?_of_ne_nil {records : List Record} (ne : records ≠ []) :
    ∃ record, combine? records = some record := by
  match records with
  | [r] => exact ⟨r, rfl⟩
  | r :: _ :: _ => exact ⟨⟨r.source, _⟩, rfl⟩

/-- The state of a line by the sum of records is the strongest of its states by each of them. -/
theorem state_of_combine? {records : List Record} {record : Record}
    (combined : combine? records = some record) (line : Int) :
    LineState.ofCount (record.hits.get? line) =
      LineState.merge (records.map fun r => LineState.ofCount (r.hits.get? line)) := by
  apply LineState.eq_of_iff
  · rw [LineState.merge_eq_covered_iff, LineState.ofCount_eq_covered_iff, List.mem_map]
    simp only [LineState.ofCount_eq_covered_iff]
    exact combine?_runs_iff combined line
  · rw [LineState.merge_eq_unknown_iff, LineState.ofCount_eq_unknown_iff, List.forall_mem_map]
    simp only [LineState.ofCount_eq_unknown_iff]
    exact combine?_get?_eq_none_iff combined line

/-! ### Records of a source file -/

/-- The pieces of the record's path end with those of the path, both in normal form. -/
def Record.IsOf (path : Text) (r : Record) : Prop :=
  Text.splitOn '/' (RepositoryPath.normalize path) <:+
    Text.splitOn '/' (RepositoryPath.normalize r.source)

instance (path : Text) (r : Record) : Decidable (r.IsOf path) :=
  inferInstanceAs (Decidable (_ <:+ _))

theorem refersTo_iff (r : Record) (path : Text) : refersTo r.source path = true ↔ r.IsOf path := by
  rw [refersTo, Record.IsOf, Text.splitOn_suffix_iff, Bool.or_eq_true, beq_iff_eq,
    List.isSuffixOf_iff_suffix]

theorem matching_eq (records : List Record) (path : Text) :
    matching records path = records.filter (·.IsOf path) := by
  apply List.filter_congr
  intro r _
  rw [Bool.eq_iff_iff, refersTo_iff, decide_eq_true_iff]

/--
A source file is found in records if one of them is of that file.  What is found gives each line the
sum of the counts that these records give it, in whatever order they come, and the strongest of the
states that they give it.
-/
theorem find?_adds_up (records : List Record) (path : Text) :
    (find? records path = none ↔ ∀ r ∈ records, ¬ r.IsOf path) ∧
    ∀ record, find? records path = some record →
      (∀ line, record.hits.get? line =
        Hits.total? ((records.filter (·.IsOf path)).filterMap (·.hits.get? line))) ∧
      (∀ lineCount i, i < lineCount → (record.hits.classify lineCount)[i]? =
        some (LineState.merge ((records.filter (·.IsOf path)).map fun r =>
          (r.hits.classify lineCount)[i]?.getD .unknown))) ∧
      ∀ records', records'.Perm records → ∃ record', find? records' path = some record' ∧
        ∀ line, record'.hits.get? line = record.hits.get? line := by
  constructor
  · rw [find?_eq_none_iff, matching_eq]
    simp
  · intro record found
    rw [find?, matching_eq] at found
    refine ⟨get?_of_combine? found, ?_, ?_⟩
    · intro lineCount i lt
      have each : ∀ r : Record, (r.hits.classify lineCount)[i]?.getD .unknown =
          LineState.ofCount (r.hits.get? ((i : Int) + 1)) := by
        intro r
        rw [Hits.getElem?_classify _ lt, Option.getD_some]
      rw [Hits.getElem?_classify _ lt, state_of_combine? found]
      simp only [each]
    · intro records' perm
      have perm : (matching records' path).Perm (matching records path) := perm.filter _
      have ne : matching records' path ≠ [] := by
        intro none
        rw [none, List.nil_perm, matching_eq] at perm
        rw [perm] at found
        cases found
      obtain ⟨record', found'⟩ := exists_combine?_of_ne_nil ne
      refine ⟨record', found', fun line => ?_⟩
      rw [matching_eq records] at perm
      rw [get?_of_combine? found', get?_of_combine? found]
      exact Hits.total?_perm (perm.filterMap _)

/-- Two records of one source file, one of them by a longer path, with another file between. -/
theorem find?_adds_up_of_longer_path :
    ∃ first other last record record',
      parse "SF:/box/main/A.kt\nDA:1,0\nDA:2,0\nSF:main/BA.kt\nDA:2,7\nSF:./main/A.kt\nDA:1,2\n" =
        .ok [first, other, last] ∧
      find? [first, other, last] "main/A.kt" = some record ∧
      find? [last, other, first] "main/A.kt" = some record' ∧
      record.hits.get? 1 = some 2 ∧ record'.hits.get? 1 = some 2 ∧
      (record.hits.classify 2)[1]? = some .notCovered := by
  refine ⟨⟨"/box/main/A.kt", (Hits.none.add 1 0).add 2 0⟩, ⟨"main/BA.kt", Hits.none.add 2 7⟩,
    ⟨"./main/A.kt", Hits.none.add 1 2⟩, ?_⟩
  obtain ⟨counts, states, order⟩ := (find?_adds_up
    [⟨"/box/main/A.kt", (Hits.none.add 1 0).add 2 0⟩, ⟨"main/BA.kt", Hits.none.add 2 7⟩,
      ⟨"./main/A.kt", Hits.none.add 1 2⟩] "main/A.kt").2 _ rfl
  obtain ⟨record', found', same⟩ := order _ (List.reverse_perm _)
  refine ⟨_, record', by decide +kernel, rfl, found', (counts 1).trans (by decide), ?_, ?_⟩
  · exact (same 1).trans ((counts 1).trans (by decide))
  · exact (states 2 1 (by decide)).trans (by decide)

end Lcov

end FileCoverage

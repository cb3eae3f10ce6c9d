import FileCoverage.Coverage.Merge
import FileCoverage.Lcov.Lookup
import Mathlib.Data.List.Basic

/-!
# Evidence for a line

What is known about a line comes from counts.  Records of one source file are added up, so a line is
listed if one of them lists it, and has a positive count if it has one in one of them.  States are
merged to the strongest, so a line is covered if one target covers it, and is unknown if no target
knows it.
-/

namespace FileCoverage

namespace LineState

theorem max_eq_covered_iff (a b : LineState) : max a b = covered ↔ a = covered ∨ b = covered := by
  cases a <;> cases b <;> simp [max, rank]

theorem max_eq_unknown_iff (a b : LineState) : max a b = unknown ↔ a = unknown ∧ b = unknown := by
  cases a <;> cases b <;> simp [max, rank]

theorem foldl_max_eq_covered_iff (start : LineState) (states : List LineState) :
    states.foldl max start = covered ↔ start = covered ∨ covered ∈ states := by
  induction states generalizing start with
  | nil => simp
  | cons state states ih =>
      rw [List.foldl_cons, ih, max_eq_covered_iff, List.mem_cons, or_assoc, eq_comm (a := covered)]

theorem foldl_max_eq_unknown_iff (start : LineState) (states : List LineState) :
    states.foldl max start = unknown ↔ start = unknown ∧ ∀ state ∈ states, state = unknown := by
  induction states generalizing start with
  | nil => simp
  | cons state states ih =>
      rw [List.foldl_cons, ih, max_eq_unknown_iff, List.forall_mem_cons, and_assoc]

theorem merge_eq_covered_iff (states : List LineState) :
    merge states = covered ↔ covered ∈ states := by
  rw [merge, foldl_max_eq_covered_iff]
  simp

theorem merge_eq_unknown_iff (states : List LineState) :
    merge states = unknown ↔ ∀ state ∈ states, state = unknown := by
  rw [merge, foldl_max_eq_unknown_iff]
  simp

theorem eq_notCovered_iff (state : LineState) :
    state = notCovered ↔ state ≠ covered ∧ state ≠ unknown := by
  cases state <;> simp

theorem ofCount_eq_covered_iff (count : Option Nat) :
    ofCount count = covered ↔ ∃ c, count = some c ∧ 0 < c := by
  rcases count with _ | _ | c <;> simp [ofCount]

theorem ofCount_eq_unknown_iff (count : Option Nat) : ofCount count = unknown ↔ count = none := by
  rcases count with _ | _ | c <;> simp [ofCount]

end LineState

/-! ### States of the same line -/

theorem Coverage.length_foldl_zipWith {records : List TargetCoverage} {merged : List LineState}
    {lines : Nat} (fits : ∀ r ∈ records, r.states.length = lines)
    (length : merged.length = lines) :
    (records.foldl (fun merged r => merged.zipWith LineState.max r.states) merged).length =
      lines := by
  induction records generalizing merged with
  | nil => exact length
  | cons r records ih =>
      apply ih (fun r' mem => fits r' (List.mem_cons_of_mem _ mem))
      rw [List.length_zipWith, length, fits r List.mem_cons_self, Nat.min_self]

theorem Coverage.getElem?_foldl_zipWith {records : List TargetCoverage} {merged : List LineState}
    {lines i : Nat} (fits : ∀ r ∈ records, r.states.length = lines) (lt : i < lines)
    (length : merged.length = lines) :
    (records.foldl (fun merged r => merged.zipWith LineState.max r.states) merged)[i]? =
      some ((records.map fun r => r.states[i]?.getD .unknown).foldl LineState.max
        (merged[i]?.getD .unknown)) := by
  induction records generalizing merged with
  | nil =>
      have bound : i < merged.length := by omega
      simp [bound]
  | cons r records ih =>
      have fit : r.states.length = lines := fits r List.mem_cons_self
      have shorter : (merged.zipWith LineState.max r.states).length = lines := by
        rw [List.length_zipWith, length, fit, Nat.min_self]
      have here : (merged.zipWith LineState.max r.states)[i]?.getD .unknown =
          LineState.max (merged[i]?.getD .unknown) (r.states[i]?.getD .unknown) := by
        have bound : i < merged.length := by omega
        have bound' : i < r.states.length := by omega
        rw [List.getElem?_zipWith, List.getElem?_eq_getElem bound, List.getElem?_eq_getElem bound']
        rfl
      rw [List.foldl_cons, ih (fun r' mem => fits r' (List.mem_cons_of_mem _ mem)) shorter, here]
      rfl

theorem Coverage.getElem?_mergedStates {records : List TargetCoverage} {lines i : Nat}
    (fits : ∀ r ∈ records, r.states.length = lines) (lt : i < lines) :
    (mergedStates records lines)[i]? =
      some (LineState.merge (records.map fun r => r.states[i]?.getD .unknown)) := by
  rw [mergedStates, getElem?_foldl_zipWith fits lt List.length_replicate, LineState.merge]
  simp [lt]

theorem Coverage.length_mergedStates {records : List TargetCoverage} {lines : Nat}
    (fits : ∀ r ∈ records, r.states.length = lines) :
    (mergedStates records lines).length = lines := by
  apply length_foldl_zipWith fits
  exact List.length_replicate

/-- Records that fit the source file can be merged. -/
theorem Coverage.merge_of_fits {source : SourceFile} {records : List TargetCoverage}
    (fits : ∀ r ∈ records, r.states.length = source.lines.length) :
    ∃ coverage, merge source records = .ok coverage ∧ coverage.source = source ∧
      coverage.states = mergedStates records source.lines.length := by
  have length := length_mergedStates fits
  refine ⟨⟨source, _, length⟩, ?_, rfl, rfl⟩
  rw [merge, (misfit?_eq_none_iff records _).2 fits]
  simp [ofStates, length]

/-! ### Counts of the same line -/

namespace Hits

theorem getElem?_classify (hits : Hits) {lineCount i : Nat} (lt : i < lineCount) :
    (hits.classify lineCount)[i]? = some (LineState.ofCount (hits.get? ((i : Int) + 1))) := by
  simp [classify, lt]

theorem get?_foldl_add (hits : Hits) {counts : KeyedList Int Nat}
    (nodup : (KeyedList.keys counts).Nodup) (line : Int) :
    (counts.foldl (fun total (line, count) => total.add line count) hits).get? line =
      match KeyedList.get? line counts with
      | Option.none => hits.get? line
      | some count => some ((hits.get? line).getD 0 + count) := by
  induction counts generalizing hits with
  | nil => rfl
  | cons pair counts ih =>
      obtain ⟨first, count⟩ := pair
      obtain ⟨absent, nodup⟩ := List.nodup_cons.1 nodup
      rw [List.foldl_cons, ih _ nodup, get?_add, KeyedList.get?]
      by_cases same : first = line
      · subst same
        rw [(KeyedList.get?_eq_none_iff first counts).2 absent, if_pos rfl, if_pos rfl]
      · rw [if_neg same, if_neg (Ne.symm same)]

theorem get?_sum (hits other : Hits) (line : Int) :
    (hits.sum other).get? line =
      match other.get? line with
      | Option.none => hits.get? line
      | some count => some ((hits.get? line).getD 0 + count) :=
  get?_foldl_add hits other.nodup_lines line

/-- The line is listed with a count that is not zero. -/
def Runs (hits : Hits) (line : Int) : Prop := ∃ count, hits.get? line = some count ∧ 0 < count

theorem get?_sum_eq_none_iff (hits other : Hits) (line : Int) :
    (hits.sum other).get? line = Option.none ↔
      hits.get? line = Option.none ∧ other.get? line = Option.none := by
  rw [get?_sum]
  cases other.get? line <;> simp

theorem runs_sum_iff (hits other : Hits) (line : Int) :
    (hits.sum other).Runs line ↔ hits.Runs line ∨ other.Runs line := by
  rw [Runs, Runs, Runs, get?_sum]
  cases hits.get? line with
  | none => cases other.get? line <;> simp
  | some known =>
      cases other.get? line with
      | none => simp
      | some more =>
          simp only [Option.getD_some, Option.some.injEq, exists_eq_left']
          omega

theorem get?_foldl_sum_eq_none_iff (start : Hits) (more : List Hits) (line : Int) :
    (more.foldl sum start).get? line = Option.none ↔
      start.get? line = Option.none ∧ ∀ hits ∈ more, hits.get? line = Option.none := by
  induction more generalizing start with
  | nil => simp
  | cons hits more ih =>
      rw [List.foldl_cons, ih, get?_sum_eq_none_iff, List.forall_mem_cons, and_assoc]

theorem runs_foldl_sum_iff (start : Hits) (more : List Hits) (line : Int) :
    (more.foldl sum start).Runs line ↔ start.Runs line ∨ ∃ hits ∈ more, hits.Runs line := by
  induction more generalizing start with
  | nil => simp
  | cons hits more ih =>
      rw [List.foldl_cons, ih, runs_sum_iff, List.exists_mem_cons_iff, or_assoc]

theorem not_runs_none (line : Int) : ¬ none.Runs line := by
  intro runs
  rcases runs with ⟨count, listed, _⟩
  cases listed

end Hits

namespace Lcov

theorem combine?_get?_eq_none_iff {records : List Record} {record : Record}
    (combined : combine? records = some record) (line : Int) :
    record.hits.get? line = none ↔ ∀ r ∈ records, r.hits.get? line = none := by
  rw [combine?.eq_def] at combined
  split at combined
  · cases combined
  · obtain rfl := Option.some.inj combined
    simp
  · obtain rfl := Option.some.inj combined
    rw [Hits.get?_foldl_sum_eq_none_iff, List.forall_mem_map]
    simp

theorem combine?_runs_iff {records : List Record} {record : Record}
    (combined : combine? records = some record) (line : Int) :
    record.hits.Runs line ↔ ∃ r ∈ records, r.hits.Runs line := by
  rw [combine?.eq_def] at combined
  split at combined
  · cases combined
  · obtain rfl := Option.some.inj combined
    simp
  · obtain rfl := Option.some.inj combined
    rw [Hits.runs_foldl_sum_iff]
    simp [Hits.not_runs_none]

end Lcov

end FileCoverage

import FileCoverage.Proofs.LineEvidence
import Mathlib.Data.List.Forall2
import Mathlib.Order.Bounds.Basic

/-!
# Merged coverage

Line states are ordered by the strength of their evidence.  What records of a source file give a
line when they are merged is the least state that is as strong as each of theirs, so it depends only
on which records there are.  Neither their order nor their number matters, records may be merged
group by group, and one more record makes no line weaker.
-/

namespace FileCoverage

namespace LineState

theorem rank_injective : Function.Injective rank := by
  intro a b
  cases a <;> cases b <;> decide

instance : PartialOrder LineState := PartialOrder.lift rank rank_injective

instance : DecidableLE LineState := fun a b => inferInstanceAs (Decidable (a.rank ≤ b.rank))

theorem unknown_le (state : LineState) : unknown ≤ state := Nat.zero_le state.rank

theorem max_le_iff {a b bound : LineState} : max a b ≤ bound ↔ a ≤ bound ∧ b ≤ bound := by
  change (max a b).rank ≤ bound.rank ↔ _
  rw [rank_max]
  exact Nat.max_le

theorem foldl_max_le_iff {start bound : LineState} {states : List LineState} :
    states.foldl max start ≤ bound ↔ start ≤ bound ∧ ∀ state ∈ states, state ≤ bound := by
  induction states generalizing start with
  | nil => simp
  | cons state states ih =>
      rw [List.foldl_cons, ih, max_le_iff, List.forall_mem_cons, and_assoc]

/-- Merging takes the least state that is as strong as each of the states. -/
theorem isLUB_merge (states : List LineState) : IsLUB {state | state ∈ states} (merge states) := by
  rw [isLUB_iff_le_iff]
  intro bound
  rw [merge, foldl_max_le_iff, and_iff_right (unknown_le bound)]
  rfl

theorem covered_of_le {a b : LineState} (le : a ≤ b) (strong : a = covered) : b = covered := by
  subst strong
  cases b with
  | covered => rfl
  | _ => exact absurd le (by decide)

theorem ne_unknown_of_le {a b : LineState} (le : a ≤ b) (known : a ≠ unknown) : b ≠ unknown := by
  rintro rfl
  exact known (le_antisymm le (unknown_le a))

end LineState

namespace Coverage

variable {source : SourceFile} {records records' group : List TargetCoverage}
  {coverage coverage' : Coverage}

/-! ### The states of one line -/

/-- The states that records give a line. -/
def statesAt (records : List TargetCoverage) (i : Nat) : Set LineState :=
  {state | ∃ r ∈ records, r.states[i]? = some state}

theorem statesAt_append (records more : List TargetCoverage) (i : Nat) :
    statesAt (records ++ more) i = statesAt records i ∪ statesAt more i := by
  ext state
  simp [statesAt, or_and_right, exists_or]

theorem statesAt_mono (all : records ⊆ records') (i : Nat) :
    statesAt records i ⊆ statesAt records' i := by
  rintro state ⟨r, mem, given⟩
  exact ⟨r, all mem, given⟩

theorem statesAt_eq {lines i : Nat} (fits : ∀ r ∈ records, r.states.length = lines)
    (lt : i < lines) :
    statesAt records i = {state | state ∈ records.map fun r => r.states[i]?.getD .unknown} := by
  ext state
  have given : ∀ r ∈ records, r.states[i]? = some state ↔ r.states[i]?.getD .unknown = state := by
    intro r mem
    have bound : i < r.states.length := (fits r mem).symm ▸ lt
    rw [List.getElem?_eq_getElem bound, Option.getD_some, Option.some_inj]
  rw [Set.mem_ofPred_eq, List.mem_map]
  exact exists_congr fun r => and_congr_right (given r)

/-- Records that fit the file are merged, line by line, to the least of the states above theirs. -/
theorem merge_eq_ok_iff : merge source records = .ok coverage ↔
    (∀ r ∈ records, r.states.length = source.lines.length) ∧ coverage.source = source ∧
      ∀ i state, coverage.states[i]? = some state → IsLUB (statesAt records i) state := by
  have strongest : ∀ {merged : Coverage}, (∀ r ∈ records, r.states.length = source.lines.length) →
      merged.states = mergedStates records source.lines.length →
      ∀ i state, merged.states[i]? = some state → IsLUB (statesAt records i) state := by
    intro merged fits states i state here
    rw [states] at here
    have lt : i < source.lines.length := by
      rw [← length_mergedStates fits]
      exact (List.getElem?_eq_some_iff.1 here).1
    rw [getElem?_mergedStates fits lt, Option.some_inj] at here
    rw [statesAt_eq fits lt, ← here]
    exact LineState.isLUB_merge _
  constructor
  · intro merged
    have fits : ∀ r ∈ records, r.states.length = source.lines.length := by
      rw [← misfit?_eq_none_iff]
      by_contra misfit
      obtain ⟨r, misfit⟩ := Option.ne_none_iff_exists'.1 misfit
      rw [merge, misfit] at merged
      cases merged
    obtain ⟨_, merged', rfl, states⟩ := merge_of_fits fits
    obtain rfl := Except.ok.inj (merged.symm.trans merged')
    exact ⟨fits, rfl, strongest fits states⟩
  · rintro ⟨fits, rfl, least⟩
    obtain ⟨merged, eq, same, states⟩ := merge_of_fits fits
    have agree : merged.states = coverage.states := by
      have length : merged.states.length = coverage.states.length := by
        rw [merged.length_states, coverage.length_states, same]
      refine List.ext_getElem length fun i lt lt' => ?_
      exact (strongest fits states i _ (List.getElem?_eq_getElem lt)).unique
        (least i _ (List.getElem?_eq_getElem lt'))
    rw [eq]
    congr 1
    cases merged
    cases coverage
    cases same
    cases agree
    rfl

theorem exists_merge_eq_error_iff : (∃ fault, merge source records = .error fault) ↔
    ∃ r ∈ records, r.states.length ≠ source.lines.length := by
  cases merged : merge source records with
  | error fault =>
      refine iff_of_true ⟨fault, rfl⟩ ?_
      by_contra fits
      push Not at fits
      obtain ⟨coverage, merged', _⟩ := merge_of_fits fits
      rw [merged] at merged'
      cases merged'
  | ok coverage =>
      refine iff_of_false (by simp) ?_
      rintro ⟨r, mem, misfit⟩
      exact misfit ((merge_eq_ok_iff.1 merged).1 r mem)

/-! ### Groups of records -/

/-- The record says what the merge of the group says, under whatever target. -/
def IsMergeOf (source : SourceFile) (group : List TargetCoverage) (r : TargetCoverage) : Prop :=
  ∃ coverage, merge source group = .ok coverage ∧ r.states = coverage.states

theorem IsMergeOf.length_states {r : TargetCoverage} (merged : IsMergeOf source group r) :
    r.states.length = source.lines.length := by
  obtain ⟨coverage, eq, states⟩ := merged
  rw [states, coverage.length_states, (merge_eq_ok_iff.1 eq).2.1]

theorem IsMergeOf.upperBounds_statesAt {r : TargetCoverage} (merged : IsMergeOf source group r)
    {i : Nat} (lt : i < source.lines.length) :
    upperBounds (statesAt [r] i) = upperBounds (statesAt group i) := by
  obtain ⟨state, here⟩ : ∃ state, r.states[i]? = some state :=
    ⟨_, List.getElem?_eq_getElem (merged.length_states.symm ▸ lt)⟩
  have alone : statesAt [r] i = {state} := by
    ext other
    simp [statesAt, here, eq_comm]
  obtain ⟨coverage, eq, states⟩ := merged
  rw [states] at here
  rw [alone, upperBounds_singleton, ((merge_eq_ok_iff.1 eq).2.2 i state here).upperBounds_eq]

theorem upperBounds_statesAt_of_merges {groups : List (List TargetCoverage)}
    {merges : List TargetCoverage} (merged : List.Forall₂ (IsMergeOf source) groups merges)
    {i : Nat} (lt : i < source.lines.length) :
    upperBounds (statesAt merges i) = upperBounds (statesAt groups.flatten i) := by
  induction merged with
  | nil => rfl
  | cons first _ ih =>
      rw [← List.singleton_append, statesAt_append, List.flatten_cons, statesAt_append,
        upperBounds_union, upperBounds_union, first.upperBounds_statesAt lt, ih]

theorem length_states_of_merges {groups : List (List TargetCoverage)}
    {merges : List TargetCoverage} (merged : List.Forall₂ (IsMergeOf source) groups merges) :
    ∀ r ∈ merges, r.states.length = source.lines.length := by
  induction merged with
  | nil => simp
  | cons first _ ih => exact List.forall_mem_cons.2 ⟨first.length_states, ih⟩

/-- Merging the merges of groups is merging all their records. -/
theorem merge_eq_of_merges {groups : List (List TargetCoverage)} {merges : List TargetCoverage}
    (merged : List.Forall₂ (IsMergeOf source) groups merges)
    (all : merge source groups.flatten = .ok coverage) : merge source merges = .ok coverage := by
  obtain ⟨_, same, least⟩ := merge_eq_ok_iff.1 all
  refine merge_eq_ok_iff.2 ⟨fun r mem => ?_, same, fun i state here => ?_⟩
  · exact length_states_of_merges merged r mem
  · have lt : i < source.lines.length := by
      rw [← same, ← coverage.length_states]
      exact (List.getElem?_eq_some_iff.1 here).1
    exact (isLUB_congr (upperBounds_statesAt_of_merges merged lt)).2 (least i state here)

/-- Merging looks only at which records there are. -/
theorem merge_eq_of_same_members (less : records' ⊆ records) (all : records ⊆ records')
    (merged : merge source records = .ok coverage) : merge source records' = .ok coverage := by
  obtain ⟨fits, same, least⟩ := merge_eq_ok_iff.1 merged
  refine merge_eq_ok_iff.2 ⟨fun r mem => fits r (less mem), same, fun i state here => ?_⟩
  rw [Set.Subset.antisymm (statesAt_mono less i) (statesAt_mono all i)]
  exact least i state here

/-! ### More records -/

theorem forall₂_le_of_subset (all : records ⊆ records')
    (merged : merge source records = .ok coverage)
    (merged' : merge source records' = .ok coverage') :
    List.Forall₂ (· ≤ ·) coverage.states coverage'.states := by
  obtain ⟨_, same, least⟩ := merge_eq_ok_iff.1 merged
  obtain ⟨_, same', least'⟩ := merge_eq_ok_iff.1 merged'
  refine List.forall₂_iff_get.2 ⟨?_, fun i lt lt' => ?_⟩
  · rw [coverage.length_states, coverage'.length_states, same, same']
  · exact (least i _ (List.getElem?_eq_getElem lt)).mono
      (least' i _ (List.getElem?_eq_getElem lt')) (statesAt_mono all i)

theorem countP_le_of_forall₂ {p : LineState → Bool} (kept : ∀ {a b}, a ≤ b → p a → p b)
    {states states' : List LineState} (le : List.Forall₂ (· ≤ ·) states states') :
    states.countP p ≤ states'.countP p := by
  induction le with
  | nil => exact Nat.le_refl _
  | @cons a b _ _ first _ ih =>
      rw [List.countP_cons, List.countP_cons]
      by_cases strong : p a
      · rw [if_pos strong, if_pos (kept first strong)]
        exact Nat.succ_le_succ ih
      · rw [if_neg strong]
        exact Nat.le_add_right_of_le ih

theorem covered_eq (coverage : Coverage) :
    coverage.covered = coverage.states.countP (· = .covered) := by
  rw [covered, List.count]
  congr 1

theorem executable_eq (coverage : Coverage) :
    coverage.executable = coverage.states.countP (· ≠ .unknown) := by
  rw [executable, covered, notCovered]
  induction coverage.states with
  | nil => rfl
  | cons state states ih => cases state <;> simp_all <;> omega

/--
Records of a source file can be merged unless one of them has another number of states than the file
has lines.  The merge is that of any list with the same records, in whatever order and however often
they stand there.  It is the merge of the merges of its groups, however the records are grouped; the
merge of an empty group counts like any other.  One more record makes no line weaker, so there are
no fewer covered and no fewer executable lines.
-/
theorem merge_semilattice (source : SourceFile) (records : List TargetCoverage) :
    ((∃ fault, merge source records = .error fault) ↔
      ∃ r ∈ records, r.states.length ≠ source.lines.length) ∧
    ∀ coverage, merge source records = .ok coverage →
      (∀ records', records' ⊆ records → records ⊆ records' →
        merge source records' = .ok coverage) ∧
      (∀ groups : List (List TargetCoverage), groups.flatten.Perm records →
        (∀ group ∈ groups, ∃ merged, merge source group = .ok merged) ∧
        ∀ merges, List.Forall₂ (IsMergeOf source) groups merges →
          merge source merges = .ok coverage) ∧
      ∀ before after r, records = before ++ after → r.states.length = source.lines.length →
        ∃ coverage', merge source (before ++ r :: after) = .ok coverage' ∧
          List.Forall₂ (· ≤ ·) coverage.states coverage'.states ∧
          coverage.covered ≤ coverage'.covered ∧ coverage.executable ≤ coverage'.executable := by
  refine ⟨exists_merge_eq_error_iff, fun coverage merged => ⟨?_, ?_, ?_⟩⟩
  · exact fun records' less all => merge_eq_of_same_members less all merged
  · intro groups perm
    have fits := (merge_eq_ok_iff.1 merged).1
    refine ⟨fun group mem => ?_, fun merges parts => ?_⟩
    · obtain ⟨part, eq, _⟩ := merge_of_fits fun r mem' =>
        fits r (perm.subset (List.mem_flatten.2 ⟨group, mem, mem'⟩))
      exact ⟨part, eq⟩
    · exact merge_eq_of_merges parts (merge_eq_of_same_members perm.subset perm.symm.subset merged)
  · rintro before after r rfl fit
    have fits := (merge_eq_ok_iff.1 merged).1
    have fits' : ∀ r' ∈ before ++ r :: after, r'.states.length = source.lines.length := by
      intro r' mem
      rcases List.mem_append.1 mem with early | late
      · exact fits r' (List.mem_append_left _ early)
      · rcases List.mem_cons.1 late with rfl | late
        · exact fit
        · exact fits r' (List.mem_append_right _ late)
    obtain ⟨coverage', merged', _⟩ := merge_of_fits fits'
    have all : before ++ after ⊆ before ++ r :: after :=
      ((List.sublist_cons_self r after).append_left before).subset
    have le := forall₂_le_of_subset all merged merged'
    refine ⟨coverage', merged', le, ?_, ?_⟩
    · rw [covered_eq, covered_eq]
      exact countP_le_of_forall₂ (fun le => by simpa using LineState.covered_of_le le) le
    · rw [executable_eq, executable_eq]
      exact countP_le_of_forall₂ (fun le => by simpa using LineState.ne_unknown_of_le le) le

end Coverage

namespace Sample

def threeLines : SourceFile := ⟨"main/A.kt", ["val a = 1", "", "val b = 2"]⟩

/-- What a target gives three lines. -/
def record (a b c : LineState) : TargetCoverage :=
  ⟨⟨"test/ATest.kt", "test", .standard⟩, [a, b, c]⟩

end Sample

open Sample Coverage in
/-- Three records in another order and one of them twice, in groups, and with a fourth between. -/
theorem merge_semilattice_of_three :
    ∃ coverage, coverage.states = [.covered, .unknown, .covered] ∧
      merge threeLines [record .covered .unknown .notCovered, record .notCovered .unknown .unknown,
        record .unknown .unknown .covered] = .ok coverage ∧
      merge threeLines [record .unknown .unknown .covered, record .covered .unknown .notCovered,
        record .notCovered .unknown .unknown, record .covered .unknown .notCovered] = .ok coverage ∧
      merge threeLines [record .notCovered .unknown .covered, record .unknown .unknown .unknown,
        record .covered .unknown .notCovered] = .ok coverage ∧
      ∃ coverage', merge threeLines [record .covered .unknown .notCovered,
          record .unknown .notCovered .unknown, record .notCovered .unknown .unknown,
          record .unknown .unknown .covered] = .ok coverage' ∧
        coverage.covered ≤ coverage'.covered ∧ coverage.executable ≤ coverage'.executable := by
  have merged : merge threeLines [record .covered .unknown .notCovered,
      record .notCovered .unknown .unknown, record .unknown .unknown .covered] =
        .ok ⟨threeLines, [.covered, .unknown, .covered], rfl⟩ := rfl
  obtain ⟨same, grouped, more⟩ := (merge_semilattice threeLines _).2 _ merged
  refine ⟨_, rfl, merged, same _ (by decide) (by decide), ?_, ?_⟩
  · refine (grouped [[record .unknown .unknown .covered, record .notCovered .unknown .unknown], [],
      [record .covered .unknown .notCovered]] (by decide)).2 _ ?_
    exact .cons ⟨_, rfl, rfl⟩ (.cons ⟨_, rfl, rfl⟩ (.cons ⟨_, rfl, rfl⟩ .nil))
  · obtain ⟨coverage', merged', _, counts⟩ := more [record .covered .unknown .notCovered] _
      (record .unknown .notCovered .unknown) rfl rfl
    exact ⟨coverage', merged', counts⟩

end FileCoverage

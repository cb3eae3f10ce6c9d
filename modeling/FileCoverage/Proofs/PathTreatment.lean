import FileCoverage.Proofs.RecordSum
import FileCoverage.Proofs.RespelledPath
import FileCoverage.Proofs.TargetResult
import FileCoverage.Resolution

/-!
# How the spellings of one file are treated

Whether a source file is there, and which of its tests are, is asked of the file tree, which follows
paths and does not care how they are spelled.  The registry and the records of a tracefile are asked
by the exact text of the normal form.  So spellings that have one normal form are treated alike, and
of two settled spellings that do not, some registry exempts one and not the other, and some record
counts for one and not the other.
-/

namespace FileCoverage

open RepositoryPath

/-- What a fault of resolution is, whatever path it tells. -/
inductive ResolutionFault.Kind where
  | sourceNotFound
  | missingTest
  deriving DecidableEq, Repr

def ResolutionFault.kind : ResolutionFault → ResolutionFault.Kind
  | .sourceNotFound _ => .sourceNotFound
  | .missingTest _ => .missingTest

variable {p q : Text}

/-! ### The file tree -/

namespace Repository

/-- What a source path is resolved to, whatever path a fault tells. -/
def treatment (repo : Repository) (ws : Workspace) (p : Text) :
    Except ResolutionFault.Kind Resolution :=
  (repo.resolve ws p).mapError ResolutionFault.kind

/-- Resolution depends on whether the file is there, its exemption, and which tests are there. -/
theorem treatment_eq (repo : Repository) (ws : Workspace) (p : Text) :
    repo.treatment ws p =
      if repo.hasFile ws (normalize p) = false then .error .sourceNotFound
      else if (repo.registry.lookup (normalize p)).incompatibleWithCoverage then
        .ok (.skip .coverageExempt)
      else match repo.existingTargets ws (normalize p) with
        | [] =>
          if (repo.registry.lookup (normalize p)).testFileNotRequired then
            .ok (.skip .testNotRequired)
          else .error .missingTest
        | targets => .ok (.targets targets) := by
  rw [treatment, resolve]
  simp only [Registry.isCoverageExempt, Registry.requiresTestFile, Bool.not_eq_eq_eq_not,
    Bool.not_true]
  split
  · rfl
  · split
    · rfl
    · cases repo.existingTargets ws (normalize p) with
      | nil =>
          cases (repo.registry.lookup (normalize p)).testFileNotRequired with
          | false => rfl
          | true => rfl
      | cons target targets => rfl

theorem treatment_eq_missing_iff (repo : Repository) (ws : Workspace) (p : Text) :
    repo.treatment ws p = .error .sourceNotFound ↔ repo.hasFile ws (normalize p) = false := by
  rw [treatment_eq]
  constructor
  · intro missing
    by_contra there
    rw [if_neg there] at missing
    split at missing
    · cases missing
    · split at missing
      · split at missing
        · cases missing
        · cases missing
      · cases missing
  · exact fun missing => if_pos missing

theorem treatment_eq_exempt_iff (repo : Repository) (ws : Workspace) (p : Text) :
    repo.treatment ws p = .ok (.skip .coverageExempt) ↔ repo.hasFile ws (normalize p) = true ∧
      (repo.registry.lookup (normalize p)).incompatibleWithCoverage = true := by
  rw [treatment_eq]
  constructor
  · intro skipped
    split at skipped
    · cases skipped
    · next there =>
        refine ⟨by simpa using there, ?_⟩
        by_contra counts
        rw [if_neg counts] at skipped
        split at skipped
        · split at skipped
          · cases skipped
          · cases skipped
        · cases skipped
  · rintro ⟨there, exempt⟩
    rw [if_neg (by simp [there]), if_pos exempt]

theorem hasFile_congr (repo : Repository) (ws : Workspace) (same : path p = path q) :
    repo.hasFile ws (normalize p) = repo.hasFile ws (normalize q) := by
  rw [hasFile, hasFile, Path.child, Path.child]
  exact congrArg (fun path => ws.isFile (repo.root.join path)) same

theorem existingTargets_congr (repo : Repository) (ws : Workspace) (same : path p = path q)
    (settled : IsSettled p) (settled' : IsSettled q) :
    repo.existingTargets ws (normalize p) = repo.existingTargets ws (normalize q) := by
  have again : path (normalize p) = path (normalize q) := by
    rw [path, path, settled, settled']
    exact same
  rw [existingTargets, existingTargets, Layout.testCandidates, Layout.testCandidates, again]

/-- Of two settled spellings, only the registry can tell one from the other. -/
theorem treatment_congr (repo : Repository) (ws : Workspace) (same : path p = path q)
    (settled : IsSettled p) (settled' : IsSettled q)
    (exemption : repo.registry.lookup p = repo.registry.lookup q) :
    repo.treatment ws p = repo.treatment ws q := by
  have exemption' : repo.registry.lookup (normalize p) = repo.registry.lookup (normalize q) := by
    rw [Registry.lookup, Registry.lookup, settled, settled']
    exact exemption
  rw [treatment_eq, treatment_eq, repo.hasFile_congr ws same, exemption',
    repo.existingTargets_congr ws same settled settled']

theorem resolve_congr (repo : Repository) (ws : Workspace) (same : normalize p = normalize q) :
    repo.resolve ws p = repo.resolve ws q := by
  rw [resolve, resolve, same]

end Repository

/-! ### The registry -/

namespace Registry

/-- The registry that leaves one path out of coverage analysis and exempts nothing else. -/
def exempting (path : Text) : Registry := ofEntries [(path, ⟨false, true⟩)]

theorem lookup_exempting (path t : Text) :
    (exempting path).lookup t = if path = normalize t then ⟨false, true⟩ else .nothing := by
  rw [lookup]
  change (if path = normalize t then some (⟨false, true⟩ : Exemption) else none).getD .nothing = _
  split <;> rfl

theorem lookup_congr (r : Registry) (same : normalize p = normalize q) :
    r.lookup p = r.lookup q := by
  rw [lookup, lookup, same]

/-- A registry may tell any two paths apart that have two normal forms. -/
theorem lookup_eq_iff : (∀ r : Registry, r.lookup p = r.lookup q) ↔ normalize p = normalize q := by
  refine ⟨fun alike => ?_, fun same r => r.lookup_congr same⟩
  have alike := alike (exempting (normalize p))
  rw [lookup_exempting, lookup_exempting, if_pos rfl] at alike
  by_contra other
  rw [if_neg other] at alike
  cases alike

end Registry

/-- If the file is there, a registry may tell settled spellings apart that have two normal forms. -/
theorem Repository.treatment_eq_iff (root : Path) (rules : List LayoutRule) (ws : Workspace)
    (same : path p = path q) (settled : IsSettled p) (settled' : IsSettled q) :
    (∀ registry, (⟨root, registry, rules⟩ : Repository).treatment ws p =
        (⟨root, registry, rules⟩ : Repository).treatment ws q) ↔
      normalize p = normalize q ∨ ws.isFile (root.child (normalize p)) = false := by
  constructor
  · intro alike
    rw [or_iff_not_imp_right, Bool.not_eq_false]
    intro there
    -- The registry that leaves `p` out of the analysis has to leave out `q` as well.
    have marked : ((Registry.exempting (normalize p)).lookup
        (normalize p)).incompatibleWithCoverage = true := by
      rw [Registry.lookup_exempting, settled, if_pos rfl]
    have exempt := (treatment_eq_exempt_iff ⟨root, .exempting (normalize p), rules⟩ ws p).2
      ⟨there, marked⟩
    rw [alike, treatment_eq_exempt_iff, Registry.lookup_exempting, settled'] at exempt
    by_contra other
    rw [if_neg other] at exempt
    cases exempt.2
  · rintro (one | missing) registry
    · rw [treatment, treatment, resolve_congr _ ws one]
    · have missing' : (⟨root, registry, rules⟩ : Repository).hasFile ws (normalize p) = false :=
        missing
      have gone := (treatment_eq_missing_iff ⟨root, registry, rules⟩ ws p).2 missing'
      rw [hasFile_congr ⟨root, registry, rules⟩ ws same] at missing'
      rw [gone, (treatment_eq_missing_iff ⟨root, registry, rules⟩ ws q).2 missing']

/-! ### Records -/

namespace Lcov

theorem refersTo_self (p : Text) : refersTo p p = true := by
  rw [refersTo, beq_self_eq_true, Bool.true_or]

theorem normalize_eq_of_refersTo (there : refersTo p q = true) (back : refersTo q p = true) :
    normalize p = normalize q := by
  simp only [refersTo, Bool.or_eq_true, beq_iff_eq, List.isSuffixOf_iff_suffix] at there back
  rcases there with one | longer
  · exact one
  · rcases back with one | longer'
    · exact one.symm
    · have lt := longer.length_le
      have lt' := longer'.length_le
      simp only [List.length_cons] at lt lt'
      omega

/-- A record may tell any two paths apart that have two normal forms. -/
theorem find?_eq_iff :
    (∀ records, find? records p = find? records q) ↔ normalize p = normalize q := by
  constructor
  · intro alike
    have counted : ∀ {s t : Text}, (find? [⟨s, Hits.none⟩] s = find? [⟨s, Hits.none⟩] t) →
        refersTo s t = true := by
      intro s t eq
      by_contra other
      rw [(find?_singleton_eq_none_iff _ t).2 (Bool.not_eq_true _ ▸ other),
        find?_singleton_eq_none_iff, refersTo_self] at eq
      cases eq
    exact normalize_eq_of_refersTo (counted (alike _)) (counted (alike _).symm)
  · intro same records
    rw [find?, find?, matching, matching]
    simp only [refersTo, same]

end Lcov

/--
Two spellings of one file.  The file is found by both or by neither.  If they have one normal form,
as they have if they differ in blanks around them, in a `./` or `/` in front or in backslashes, then
they are treated alike throughout.  If they are settled, then they are resolved alike wherever the
registry exempts both or neither; but every registry, and every list of records, treats them alike
only if they have one normal form.
-/
theorem one_file_one_treatment (same : path p = path q) :
    (∀ (repo : Repository) (ws : Workspace), repo.treatment ws p = .error .sourceNotFound ↔
      repo.treatment ws q = .error .sourceNotFound) ∧
    (Respelled p q → normalize p = normalize q) ∧
    (normalize p = normalize q → ∀ (repo : Repository) (ws : Workspace) (records),
      repo.registry.lookup p = repo.registry.lookup q ∧ repo.resolve ws p = repo.resolve ws q ∧
      Lcov.find? records p = Lcov.find? records q) ∧
    (IsSettled p → IsSettled q →
      (∀ (repo : Repository) (ws : Workspace), repo.registry.lookup p = repo.registry.lookup q →
        repo.treatment ws p = repo.treatment ws q) ∧
      ((∀ r : Registry, r.lookup p = r.lookup q) ↔ normalize p = normalize q) ∧
      ((∀ records, Lcov.find? records p = Lcov.find? records q) ↔ normalize p = normalize q) ∧
      ∀ (root : Path) (rules : List LayoutRule) (ws : Workspace),
        (∀ registry, (⟨root, registry, rules⟩ : Repository).treatment ws p =
          (⟨root, registry, rules⟩ : Repository).treatment ws q) ↔
        normalize p = normalize q ∨ ws.isFile (root.child (normalize p)) = false) := by
  refine ⟨fun repo ws => ?_, normalize_of_respelled, fun one repo ws records => ?_, ?_⟩
  · rw [Repository.treatment_eq_missing_iff, Repository.treatment_eq_missing_iff,
      Repository.hasFile_congr repo ws same]
  · exact ⟨repo.registry.lookup_congr one, repo.resolve_congr ws one,
      Lcov.find?_eq_iff.2 one records⟩
  · intro settled settled'
    exact ⟨fun repo ws => repo.treatment_congr ws same settled settled',
      Registry.lookup_eq_iff, Lcov.find?_eq_iff,
      fun root rules ws => Repository.treatment_eq_iff root rules ws same settled settled'⟩

/-- Two spellings that respell each other, and one with a doubled slash beside them. -/
theorem one_file_one_treatment_of_doubled_slash :
    path "main//A.kt" = path "main/A.kt" ∧ path " ./main\\A.kt" = path "main/A.kt" ∧
    (∀ r : Registry, r.lookup " ./main\\A.kt" = r.lookup "main/A.kt") ∧
    (∀ ws : Workspace, (⟨⟨.root, []⟩, .exempting "A.kt", []⟩ : Repository).treatment ws "main//A.kt" =
      (⟨⟨.root, []⟩, .exempting "A.kt", []⟩ : Repository).treatment ws "main/A.kt") ∧
    ¬ ∀ r : Registry, r.lookup "main//A.kt" = r.lookup "main/A.kt" := by
  have same : path "main//A.kt" = path "main/A.kt" := by decide
  have same' : path " ./main\\A.kt" = path "main/A.kt" := by decide
  have settled : IsSettled "main//A.kt" := by decide
  have settled' : IsSettled "main/A.kt" := by decide
  have respelled : Respelled " ./main\\A.kt" "main/A.kt" := by
    have backslash : Respelling "main/A.kt" "main\\A.kt" := .backslash "main" "A.kt"
    have dot : Respelling "main\\A.kt" "./main\\A.kt" := .dot (by rintro c ⟨⟩; rfl)
    have blank : Respelling "./main\\A.kt" " ./main\\A.kt" := .blankBefore rfl _
    exact .symm _ _ (.trans _ _ _ (.rel _ _ backslash) (.trans _ _ _ (.rel _ _ dot)
      (.rel _ _ blank)))
  obtain ⟨_, normal, alike, _⟩ := one_file_one_treatment same'
  obtain ⟨_, _, _, exact⟩ := one_file_one_treatment same
  obtain ⟨resolved, registries, _, _⟩ := exact settled settled'
  refine ⟨same, same', fun r => ?_, fun ws => ?_, fun all => ?_⟩
  · exact (alike (normal respelled) ⟨⟨.root, []⟩, r, []⟩ (Sample.workspace []) []).1
  · exact resolved ⟨⟨.root, []⟩, .exempting "A.kt", []⟩ ws (by decide)
  · exact absurd (registries.1 all) (by decide)

open Sample in
/-- An exempt file is analysed all the same if its path is spelled with a doubled slash. -/
theorem doubled_slash_bypasses_exemption :
    path "main//A.kt" = path "main/A.kt" ∧
    (Registry.exempting "main/A.kt").lookup "main//A.kt" ≠
      (Registry.exempting "main/A.kt").lookup "main/A.kt" ∧
    (⟨⟨.root, []⟩, .exempting "main/A.kt", Layout.defaultRules⟩ : Repository).treatment
      (workspace tracefile) "main/A.kt" = .ok (.skip .coverageExempt) ∧
    (⟨⟨.root, []⟩, .exempting "main/A.kt", Layout.defaultRules⟩ : Repository).treatment
      (workspace tracefile) "main//A.kt" =
        .ok (.targets [passing, failing]) ∧
    Lcov.find? [⟨"main/A.kt", Hits.none⟩] "main/A.kt" = some ⟨"main/A.kt", Hits.none⟩ ∧
    Lcov.find? [⟨"main/A.kt", Hits.none⟩] "main//A.kt" = none := by
  refine ⟨by decide, by decide, by decide, by decide, by decide, by decide⟩

end FileCoverage

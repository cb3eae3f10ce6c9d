import FileCoverage.Proofs.ListedEntries
import FileCoverage.Proofs.PresenceByName
import FileCoverage.Proofs.SearchedFiles

/-!
# How changes change what is reported

The files without tests are told in strict order, so the list is known by its members.  An
exemption more takes its file out of the search and changes nothing else: a file of production code
is no longer reported, and a test no longer counts for the files that it is for.  A further test
takes those off the list whose test has its name.
-/

namespace FileCoverage

namespace PresenceCheck

open FileCoverage.Directory

variable {ws ws' : Workspace} {root : Path} {reports extension : Text} {registry wider : Registry}
  {file other : Text} {names : List Text} {d : Directory}

/-! ### The list that is told -/

theorem pairwise_missingTests (proper : (directoryAt ws root).IsProper) :
    (missingTests ws root reports extension registry).Pairwise (· < ·) := by
  rw [missingTests, withoutTest_eq]
  exact Text.pairwise_lt_sorted ((nodup_searchedFiles proper).filter _)

theorem mem_missingTests_iff : file ∈ missingTests ws root reports extension registry ↔
    file ∈ search ws root reports extension registry ∧
      IsReported extension (search ws root reports extension registry) file :=
  mem_withoutTest_iff

/-! ### A further exemption -/

/-- The registry `wider` has the path beside those of the other. -/
def Adds (registry wider : Registry) (file : Text) : Prop :=
  ∀ path, path ∈ wider.paths ↔ path = file ∨ path ∈ registry.paths

theorem mem_search_of_adds (adds : Adds registry wider file) :
    other ∈ search ws root reports extension wider ↔
      other ∈ search ws root reports extension registry ∧ other ≠ file := by
  rw [search, search, searchedFiles, searchedFiles, List.mem_filter, List.mem_filter, and_assoc]
  refine and_congr_right fun _ => ?_
  rw [List.contains_eq_mem, List.contains_eq_mem, Bool.not_eq_true', Bool.not_eq_true',
    decide_eq_false_iff_not, decide_eq_false_iff_not, adds other, not_or, and_comm]

/-- A file of production code that becomes exempt is taken off the list, and no other is. -/
theorem missingTests_of_production (proper : (directoryAt ws root).IsProper)
    (adds : Adds registry wider file)
    (isProduction : Layout.isTestFile file (some extension) = false) :
    missingTests ws root reports extension wider =
      (missingTests ws root reports extension registry).filter (· ≠ file) := by
  refine eq_of_strict (fun _ _ => lt_asymm) (pairwise_missingTests proper)
    ((pairwise_missingTests proper).filter _) fun t => ?_
  rw [List.mem_filter, mem_missingTests_iff, mem_missingTests_iff, mem_search_of_adds adds,
    decide_eq_true_iff, and_right_comm]
  refine and_congr_left fun _ => and_congr_right fun _ => and_congr_right fun _ => ?_
  -- The file is no test, so it does not matter that it is no longer searched.
  refine forall_congr' fun test => ?_
  rw [mem_search_of_adds adds]
  refine ⟨fun all mem isTest => all ⟨mem, ?_⟩ isTest, fun all mem => all mem.1⟩
  rintro rfl
  rw [isProduction] at isTest
  cases isTest

/-- A test that becomes exempt takes no file off the list. -/
theorem missingTests_subset_of_test (adds : Adds registry wider file)
    (isTest : Layout.isTestFile file (some extension) = true) :
    missingTests ws root reports extension registry ⊆
      missingTests ws root reports extension wider := by
  intro t mem
  obtain ⟨mem, isProduction, untested⟩ := mem_missingTests_iff.1 mem
  refine mem_missingTests_iff.2 ⟨(mem_search_of_adds adds).2 ⟨mem, ?_⟩, isProduction, ?_⟩
  · rintro rfl
    rw [isTest] at isProduction
    cases isProduction
  · exact fun test mem => untested test ((mem_search_of_adds adds).1 mem).1

/-! ### A further test -/

/-- The file tree of `ws'` has a file at the end of the way that the names tell, beside those that
are there before. -/
def Creates (ws ws' : Workspace) (root : Path) (names : List Text) : Prop :=
  ∀ other, (directoryAt ws' root).HoldsFile other ↔
    other = names ∨ (directoryAt ws root).HoldsFile other

theorem mem_search_of_creates (proper : (directoryAt ws root).IsProper)
    (proper' : (directoryAt ws' root).IsProper) (creates : Creates ws ws' root names)
    (searched : IsSearched reports extension registry.paths names) :
    other ∈ search ws' root reports extension registry ↔
      other = Text.join "/" names ∨ other ∈ search ws root reports extension registry := by
  rw [search, search, mem_searchedFiles_iff proper', mem_searchedFiles_iff proper]
  constructor
  · rintro ⟨names', isFile, searched', rfl⟩
    rcases (creates names').1 isFile with rfl | isFile
    · exact .inl rfl
    · exact .inr ⟨names', isFile, searched', rfl⟩
  · rintro (rfl | ⟨names', isFile, searched', rfl⟩)
    · exact ⟨names, (creates names).2 (.inl rfl), searched, rfl⟩
    · exact ⟨names', (creates names').2 (.inr isFile), searched', rfl⟩

theorem baseName_join (proper : d.IsProper) (isFile : d.HoldsFile names) :
    baseName (Text.join "/" names) = names.getLastD [] := by
  have ne : names ≠ [] := by
    rintro rfl
    exact not_holdsFile_nil d isFile
  have isEntryName := proper.isEntryName_of_holdsFile isFile _ (List.getLast_mem ne)
  rw [List.getLastD_eq_getLast?, List.getLast?_eq_some_getLast ne]
  exact Path.name_ofText_join isEntryName.slash isEntryName.isName
    (List.getLast?_eq_some_getLast ne)

/-- A further test takes those files off the list whose test has its name, and no others. -/
theorem missingTests_of_creates (proper : (directoryAt ws root).IsProper)
    (proper' : (directoryAt ws' root).IsProper) (creates : Creates ws ws' root names)
    (searched : IsSearched reports extension registry.paths names)
    (isTest : Layout.isTestFile (Text.join "/" names) (some extension) = true) :
    missingTests ws' root reports extension registry =
      (missingTests ws root reports extension registry).filter
        (Layout.expectedTestName · ≠ names.getLastD []) := by
  have name := baseName_join proper' ((creates names).2 (.inl rfl))
  refine eq_of_strict (fun _ _ => lt_asymm) (pairwise_missingTests proper')
    ((pairwise_missingTests proper).filter _) fun t => ?_
  have mem_search {other : Text} : other ∈ search ws' root reports extension registry ↔
      other = Text.join "/" names ∨ other ∈ search ws root reports extension registry :=
    mem_search_of_creates proper proper' creates searched
  rw [List.mem_filter, mem_missingTests_iff, mem_missingTests_iff, mem_search, decide_eq_true_iff]
  constructor
  · rintro ⟨mem, isProduction, untested⟩
    have mem : t ∈ search ws root reports extension registry := by
      refine mem.resolve_left ?_
      rintro rfl
      rw [isTest] at isProduction
      cases isProduction
    refine ⟨⟨mem, isProduction, fun test mem => untested test (mem_search.2 (.inr mem))⟩, ?_⟩
    exact fun same => untested _ (mem_search.2 (.inl rfl)) isTest (name.trans same.symm)
  · rintro ⟨⟨mem, isProduction, untested⟩, other⟩
    refine ⟨.inr mem, isProduction, fun test mem' => ?_⟩
    rcases mem_search.1 mem' with rfl | mem'
    · exact fun _ same => other (same.symm.trans name)
    · exact untested test mem'

/--
The files without tests are told in strict code-point order.  If a file of production code becomes
exempt, it is taken off the list and nothing else changes; if a test does, no file is taken off the
list.  A further test that is searched adds no file to the list, and takes those off it whose test
has its name.  The registry that exempts the same paths from having tests gives the same list.
-/
theorem missingTests_after_changes (proper : (directoryAt ws root).IsProper)
    (reports extension : Text) (registry : Registry) :
    (missingTests ws root reports extension registry).Pairwise (· < ·) ∧
    (∀ (file : Text) (wider : Registry),
      (∀ path, path ∈ wider.paths ↔ path = file ∨ path ∈ registry.paths) →
      (Layout.isTestFile file (some extension) = false →
        missingTests ws root reports extension wider =
          (missingTests ws root reports extension registry).filter (· ≠ file)) ∧
      (Layout.isTestFile file (some extension) = true →
        missingTests ws root reports extension registry ⊆
          missingTests ws root reports extension wider)) ∧
    (∀ (ws' : Workspace) (names : List Text), (directoryAt ws' root).IsProper →
      (∀ other, (directoryAt ws' root).HoldsFile other ↔
        other = names ∨ (directoryAt ws root).HoldsFile other) →
      IsSearched reports extension registry.paths names →
      Layout.isTestFile (Text.join "/" names) (some extension) = true →
      missingTests ws' root reports extension registry =
        (missingTests ws root reports extension registry).filter
          (Layout.expectedTestName · ≠ names.getLastD [])) ∧
    missingTests ws root reports extension registry.regenerate =
      missingTests ws root reports extension registry := by
  refine ⟨pairwise_missingTests proper, fun file wider adds => ⟨?_, ?_⟩, ?_, ?_⟩
  · exact missingTests_of_production proper adds
  · exact missingTests_subset_of_test adds
  · exact fun ws' names proper' creates => missingTests_of_creates proper proper' creates
  · rw [missingTests, search, registry.paths_regenerate]
    rfl

/-- The file of `fileWithTest` without its test. -/
def fileAlone : Workspace := ⟨.file "A.kt" [] .empty, []⟩

/-- The test takes the file off the list, as does an exemption of the file, while an exemption of
the test does not. -/
theorem missingTests_after_changes_of_fileAlone :
    missingTests fileWithTest ⟨.root, []⟩ "reports" ".kt" .empty =
      (missingTests fileAlone ⟨.root, []⟩ "reports" ".kt" .empty).filter
        (Layout.expectedTestName · ≠ "ATest.kt") ∧
    missingTests fileAlone ⟨.root, []⟩ "reports" ".kt" (.ofEntries [("A.kt", ⟨true, false⟩)]) =
      (missingTests fileAlone ⟨.root, []⟩ "reports" ".kt" .empty).filter
        (· ≠ ("A.kt" : Text)) ∧
    missingTests fileWithTest ⟨.root, []⟩ "reports" ".kt" .empty ⊆
      missingTests fileWithTest ⟨.root, []⟩ "reports" ".kt"
        (.ofEntries [("test/ATest.kt", ⟨true, false⟩)]) := by
  have alone : directoryAt fileAlone ⟨.root, []⟩ = .file "A.kt" [] .empty := by decide
  have both : directoryAt fileWithTest ⟨.root, []⟩ =
      .file "A.kt" [] (.folder "test" (.file "ATest.kt" [] .empty) .empty) := by decide
  have proper : (directoryAt fileAlone ⟨.root, []⟩).IsProper := by
    rw [alone]
    decide
  have proper' : (directoryAt fileWithTest ⟨.root, []⟩).IsProper := by
    rw [both]
    decide
  have creates : Creates fileAlone fileWithTest ⟨.root, []⟩ ["test", "ATest.kt"] := by
    intro other
    rw [both, alone, holdsFile_file_iff (by decide), holdsFile_folder_iff (by decide),
      holdsFile_file_iff (by decide)]
    simp only [holdsFile_file_iff (d := .empty) (List.not_mem_nil), not_holdsFile_empty, or_false]
    rw [or_comm]
    refine or_congr_left ⟨?_, fun eq => ⟨_, eq, rfl⟩⟩
    rintro ⟨_, rfl, rfl⟩
    rfl
  obtain ⟨_, exempted, created, _⟩ := missingTests_after_changes proper "reports" ".kt" .empty
  obtain ⟨_, exemptedTest, _⟩ := missingTests_after_changes proper' "reports" ".kt" .empty
  refine ⟨?_, ?_, ?_⟩
  · exact created fileWithTest ["test", "ATest.kt"] proper' creates
      ⟨by decide, by decide, by decide⟩ (by decide)
  · refine (exempted "A.kt" _ fun path => ?_).1 (by decide)
    exact List.mem_singleton.trans (or_iff_left List.not_mem_nil).symm
  · refine (exemptedTest "test/ATest.kt" _ fun path => ?_).2 (by decide)
    exact List.mem_singleton.trans (or_iff_left List.not_mem_nil).symm

end PresenceCheck

end FileCoverage

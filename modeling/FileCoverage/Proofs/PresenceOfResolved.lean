import FileCoverage.Proofs.Except
import FileCoverage.Proofs.FileFrame
import FileCoverage.Proofs.PresenceByName
import FileCoverage.Proofs.SearchedFiles
import FileCoverage.Proofs.StablePath
import FileCoverage.Proofs.TestCandidates
import FileCoverage.Resolution

/-!
# Files that are resolved and files that are reported

A source is resolved to tests in the folders that the layout names, while the check looks for one
name in the whole repository.  The two meet in the standard test, which has that name: a source that
is resolved to a standard test is not reported, if that test is searched.  Local tests have another
name, so they do not count.
-/

namespace FileCoverage

/-! ### Where paths lead -/

namespace Workspace

variable {ws : Workspace} {p : Path} {place place' before : List Text} {name : Text} {found : Entry}

/-- The place that a path leads to. -/
def Leads (ws : Workspace) (p : Path) (place : List Text) : Prop :=
  follow ws.top (ws.start p) p.names = .ok place

theorem Leads.unique (leads : ws.Leads p place) (leads' : ws.Leads p place') : place' = place :=
  Except.ok.inj (leads'.symm.trans leads)

theorem exists_leads_of_entry (here : ws.entry p = .ok found) :
    ∃ place, ws.Leads p place ∧ ws.top.at? place = some found := by
  rw [entry] at here
  split at here
  · cases here
  · obtain ⟨place, leads, here⟩ := bind_eq_ok_iff.1 here
    refine ⟨place, leads, ?_⟩
    split at here
    · next there => rw [there, Except.ok.inj here]
    · cases here

/-- A file whose place is below that of a directory is in that directory. -/
theorem Leads.holdsFile {inside : Directory} {q : Path} {names : List Text}
    (leads : ws.Leads p place) (here : ws.entry p = .ok (.folder inside))
    (leads' : ws.Leads q (place ++ names)) (isFile : ws.isFile q = true) :
    inside.HoldsFile names := by
  obtain ⟨content, there⟩ := isFile_eq_true_iff.1 isFile
  obtain ⟨_, leads'', there⟩ := exists_leads_of_entry there
  obtain rfl := leads'.unique leads''
  obtain ⟨_, leads'', here⟩ := exists_leads_of_entry here
  obtain rfl := leads.unique leads''
  exact ⟨content, (Directory.at?_append here names).symm.trans there⟩

/-- The last step of a way goes down to the name, unless it goes up. -/
theorem Leads.exists_eq_append (leads : ws.Leads p place) (names : p.names = before ++ [name])
    (down : name ≠ "..") : ∃ above, place = above ++ [name] := by
  rw [Leads, names] at leads
  obtain ⟨above, _, last⟩ := follow_append_iff.1 leads
  obtain ⟨next, stepped, rest⟩ := follow_cons_iff.1 last
  obtain rfl := Except.ok.inj rest
  rw [step_eq_ok_iff, if_neg down] at stepped
  exact ⟨above, stepped.2.2⟩

end Workspace

/-! ### The tests that are found -/

namespace Repository

variable {repo : Repository} {ws : Workspace} {path : Text} {targets : List TestTarget}
  {target : TestTarget}

theorem eq_existingTargets_of_resolve (resolved : repo.resolve ws path = .ok (.targets targets)) :
    targets = repo.existingTargets ws (RepositoryPath.normalize path) := by
  rw [resolve] at resolved
  split at resolved
  · cases resolved
  · split at resolved
    · cases resolved
    · split at resolved
      · split at resolved
        · cases resolved
        · cases resolved
      · exact (Resolution.targets.inj (Except.ok.inj resolved)).symm

theorem mem_existingTargets_iff : target ∈ repo.existingTargets ws path ↔
    target ∈ Layout.testCandidates repo.rules path ∧ repo.hasFile ws target.testPath = true :=
  List.mem_filter

end Repository

/-! ### The name that is looked for -/

namespace Layout

open FileCoverage.Path PresenceCheck

variable {rules : List LayoutRule} {target : TestTarget} {extension file name path : Text}

theorem distinct_subset (targets : List TestTarget) : distinct targets ⊆ targets := by
  induction targets using List.reverseRecOn with
  | nil => exact List.Subset.refl _
  | append_singleton targets target ih =>
      rw [distinct_append_singleton]
      split
      · exact List.subset_append_of_subset_left _ ih
      · refine List.append_subset.2 ⟨?_, List.subset_append_right _ _⟩
        exact List.subset_append_of_subset_left _ ih

theorem name_fileIn (slash : '/' ∉ name) (isName : isName name = true) (folders : List Text) :
    (ofText (fileIn folders name)).name = name := by
  rw [fileIn, ofPieces_append_singleton slash isName]
  exact name_ofText_toText slash isName _ _

/-- A suffix that normalizing leaves at the end of a path. -/
structure IsPlainSuffix (extension : Text) : Prop where
  isSuffix : IsPathSuffix extension
  solid : ∀ c ∈ extension.getLast?, Text.isBlank c = false
  slash : '/' ∉ extension
  backslash : '\\' ∉ extension

theorem isPlainSuffix_kt : IsPlainSuffix ".kt" := by
  refine ⟨⟨"kt", rfl, by decide, by decide⟩, ?_, by decide, by decide⟩
  rintro c ⟨⟩
  rfl

namespace IsPlainSuffix

theorem suffix_normalize (plain : IsPlainSuffix extension) (ends : extension <:+ file) :
    extension <:+ RepositoryPath.normalize file := by
  refine RepositoryPath.suffix_normalize ?_ plain.solid plain.slash plain.backslash ends
  obtain ⟨more, rfl, _⟩ := plain.isSuffix
  rintro c ⟨⟩
  rfl

theorem suffix_name (plain : IsPlainSuffix extension) (ends : extension <:+ file) :
    extension <:+ (RepositoryPath.path file).name :=
  (Path.suffix_name plain.slash plain.isSuffix.isName (plain.suffix_normalize ends)).1

/-- A file that has more than the extension for its name has the extension for its suffix, so that
the test of the file has it too. -/
theorem suffix_expectedTestName (plain : IsPlainSuffix extension) (ends : extension <:+ file)
    (longer : (RepositoryPath.path file).name ≠ extension) :
    ("Test" : Text) ++ extension <:+ expectedTestName file := by
  obtain ⟨stem, eq⟩ := plain.suffix_name ends
  have ne : stem ≠ [] := by
    rintro rfl
    exact longer eq.symm
  have cut := plain.isSuffix.cutSuffix_append ne
  rw [eq] at cut
  have expected : expectedTestName file = stem ++ "Test" ++ extension := by
    rw [expectedTestName, Path.stem, Path.suffix, cut]
    rfl
  rw [expected, List.append_assoc]
  exact List.suffix_append _ _

end IsPlainSuffix

theorem slash_mem_of_mem_foldersOf {folder : Text} (isFolder : folder ∈ foldersOf path) :
    '/' ∈ RepositoryPath.normalize path := by
  by_contra clear
  rw [foldersOf, RepositoryPath.path, ofText_of_notMem clear] at isFolder
  have none : (Path.pieces ⟨.relative, [RepositoryPath.normalize path].filter isName⟩).dropLast =
      [] := by
    change ([RepositoryPath.normalize path].filter isName).dropLast = []
    rw [List.filter_singleton]
    cases isName (RepositoryPath.normalize path) <;> rfl
  rw [none] at isFolder
  cases isFolder

/-- Normalizing again gives the same name, as there is a folder in front of it. -/
theorem expectedTestName_normalize (plain : IsPlainSuffix extension) (ends : extension <:+ file)
    {folder : Text} (isFolder : folder ∈ foldersOf (RepositoryPath.normalize file)) :
    expectedTestName (RepositoryPath.normalize file) = expectedTestName file := by
  have again : (RepositoryPath.path (RepositoryPath.normalize file)).name =
      (RepositoryPath.path file).name :=
    name_ofText_eq_of_suffix (RepositoryPath.normalize_normalize_suffix file)
      (slash_mem_of_mem_foldersOf isFolder) plain.slash plain.isSuffix.isName
      (plain.suffix_normalize (plain.suffix_normalize ends))
  rw [expectedTestName, expectedTestName, Path.stem, Path.suffix, again]
  rfl

theorem slash_notMem_expectedTestName (file : Text) : '/' ∉ expectedTestName file := by
  have eq : expectedTestName file = testName testSuffix (RepositoryPath.path file).name := rfl
  rw [eq, mem_testName_iff, not_or]
  exact ⟨slash_notMem_name _, by decide⟩

theorem testPath_of_standard {folder : Text} {place : Nat}
    (mem : target ∈ testsIn path place folder) (standard : target.kind = .standard) :
    target.testPath = fileIn ((foldersOf path).set place folder) (expectedTestName path) := by
  have name : (RepositoryPath.path path).stem ++ "Test" ++ (RepositoryPath.path path).suffix =
      expectedTestName path := rfl
  rw [testsIn, List.mem_pair] at mem
  rcases mem with eq | eq
  · rw [eq, name]
  · rw [eq] at standard
    cases standard

/-- Of a file that has tests at all, the standard ones have the name that is looked for. -/
theorem name_of_standard (plain : IsPlainSuffix extension) (ends : extension <:+ file)
    (longer : (RepositoryPath.path file).name ≠ extension)
    (mem : target ∈ testCandidates rules (RepositoryPath.normalize file))
    (standard : target.kind = .standard) :
    (ofText target.testPath).name = expectedTestName file := by
  obtain ⟨rule, place, found, _⟩ := exists_sourceRule?_eq_some (List.ne_nil_of_mem mem)
  obtain ⟨k, chosen⟩ := exists_isChosen_of_sourceRule? found
  rw [IsChosen.testCandidates_eq chosen] at mem
  obtain ⟨folder, _, mem⟩ := List.mem_flatMap.1 (distinct_subset _ mem)
  have isFolder := exists_isFirstPlace_iff.1 ⟨place, chosen.applies.2⟩
  have isName := isName_of_suffix plain.isSuffix.isName
    ((List.suffix_append _ _).trans (plain.suffix_expectedTestName ends longer))
  rw [testPath_of_standard mem standard, expectedTestName_normalize plain ends isFolder]
  exact name_fileIn (slash_notMem_expectedTestName file) isName _

end Layout

/-! ### Searched tests -/

namespace PresenceCheck

open FileCoverage.Path FileCoverage.Directory Layout

variable {repo : Repository} {ws : Workspace} {root : Path} {reports extension file : Text}
  {files names : List Text} {registry : Registry} {target : TestTarget}

/-- The test is in the repository, in folders that are searched, and it is not exempt. -/
def IsSearchedTest (repo : Repository) (ws : Workspace) (reports : Text)
    (target : TestTarget) : Prop :=
  ∃ top names, ws.Leads repo.root top ∧
    ws.Leads (repo.root.child target.testPath) (top ++ names) ∧
    (∀ folder ∈ names.dropLast, IsSearchedFolder reports folder) ∧
    Text.join "/" names ∉ repo.registry.paths

theorem exists_entry_of_mem_search (mem : file ∈ search ws root reports extension registry) :
    ws.entry root = .ok (.folder (directoryAt ws root)) := by
  rw [directoryAt]
  split
  · next inside here => exact here
  · next other =>
      have empty : directoryAt ws root = .empty := by
        rw [directoryAt]
        split
        · next inside here => exact absurd here (other inside)
        · rfl
      rw [search, searchedFiles, empty, listing_empty] at mem
      cases mem

/-- A test with a name that ends with the extension is found by the search. -/
theorem exists_mem_search_of_isSearchedTest
    (top : ws.entry repo.root = .ok (.folder (directoryAt ws repo.root)))
    (isFile : repo.hasFile ws target.testPath = true)
    (searched : IsSearchedTest repo ws reports target)
    (ends : extension <:+ (ofText target.testPath).name) (isName : isName extension = true)
    (down : (ofText target.testPath).name ≠ "..") :
    ∃ other ∈ search ws repo.root reports extension repo.registry,
      baseName other = (ofText target.testPath).name := by
  obtain ⟨place, names, leads, leads', folders, listed⟩ := searched
  have isFile := leads.holdsFile top leads' isFile
  have isName' := isName_of_suffix isName ends
  -- The last name of the way is that of the test, as the way goes down to it.
  have last : names.getLast? = some (ofText target.testPath).name := by
    obtain ⟨before, eq⟩ := exists_names_child repo.root ((isName_iff _).1 isName').1
    obtain ⟨above, eq⟩ := leads'.exists_eq_append eq down
    have ne : names ≠ [] := by
      rintro rfl
      exact not_holdsFile_nil _ isFile
    rw [← List.getLast?_append_of_ne_nil _ ne, eq, List.getLast?_concat]
  refine ⟨Text.join "/" names, mem_search_of_isSearched isFile ⟨?_, folders, listed⟩,
    name_ofText_join (slash_notMem_name _) isName' last⟩
  rwa [List.getLastD_eq_getLast?, last]

/-! ### What is reported -/

/-- A file with the name that is looked for is a test. -/
theorem isReported_iff (plain : IsPlainSuffix extension)
    (ends : ∀ other ∈ files, extension <:+ other) (mem : file ∈ files)
    (longer : (RepositoryPath.path file).name ≠ extension) :
    IsReported extension files file ↔ isTestFile file (some extension) = false ∧
      ∀ other ∈ files, baseName other ≠ expectedTestName file := by
  have marked := plain.suffix_expectedTestName (ends file mem) longer
  refine and_congr_right fun _ => forall₂_congr fun other mem' => ?_
  refine ⟨fun untested same => untested ?_ same, fun ne _ => ne⟩
  exact plain.isSuffix.isTestFile plain.solid plain.backslash (ends other mem') (same ▸ marked)

theorem mem_missingTests_iff_of_plain (plain : IsPlainSuffix extension)
    (mem : file ∈ search ws root reports extension registry)
    (longer : (RepositoryPath.path file).name ≠ extension) :
    file ∈ missingTests ws root reports extension registry ↔
      isTestFile file (some extension) = false ∧
        ∀ other ∈ search ws root reports extension registry,
          baseName other ≠ expectedTestName file := by
  rw [missingTests, mem_withoutTest_iff, and_iff_right mem]
  exact isReported_iff plain (fun other => suffix_of_mem_search) mem longer

/-- A standard test that is searched keeps its source off the list. -/
theorem notMem_missingTests_of_standard (plain : IsPlainSuffix extension)
    (mem : file ∈ search ws repo.root reports extension repo.registry)
    (longer : (RepositoryPath.path file).name ≠ extension)
    (isTarget : target ∈ repo.existingTargets ws (RepositoryPath.normalize file))
    (standard : target.kind = .standard) (searched : IsSearchedTest repo ws reports target) :
    file ∉ missingTests ws repo.root reports extension repo.registry := by
  obtain ⟨candidate, isFile⟩ := Repository.mem_existingTargets_iff.1 isTarget
  have ends := suffix_of_mem_search mem
  have name := name_of_standard plain ends longer candidate standard
  have marked := plain.suffix_expectedTestName ends longer
  have down : (ofText target.testPath).name ≠ ".." := by
    intro up
    rw [← name, up] at marked
    exact absurd (marked.subset (List.mem_append_left _ List.mem_cons_self)) (by decide)
  obtain ⟨other, mem', same⟩ := exists_mem_search_of_isSearchedTest
    (exists_entry_of_mem_search mem) isFile searched
    (name ▸ (List.suffix_append _ _).trans marked) plain.isSuffix.isName down
  rw [mem_missingTests_iff_of_plain plain mem longer]
  exact fun ⟨_, untested⟩ => untested other mem' (same.trans name)

/--
A source with more than `.kt` for its name is not reported if it is resolved to tests of which a
standard one is searched.  It is reported exactly if it is no test and no file that is searched has
the name of its standard test, whatever else it is resolved to.
-/
theorem missingTests_of_resolved (repo : Repository) (ws : Workspace) (reports : Text)
    (mem : file ∈ search ws repo.root reports ".kt" repo.registry)
    (longer : (RepositoryPath.path file).name ≠ ".kt") :
    (∀ targets, repo.resolve ws file = .ok (.targets targets) →
      (∃ target ∈ targets, target.kind = .standard ∧ IsSearchedTest repo ws reports target) →
      file ∉ missingTests ws repo.root reports ".kt" repo.registry) ∧
    (file ∈ missingTests ws repo.root reports ".kt" repo.registry ↔
      isTestFile file (some ".kt") = false ∧
        ∀ other ∈ search ws repo.root reports ".kt" repo.registry,
          baseName other ≠ expectedTestName file) := by
  refine ⟨?_, mem_missingTests_iff_of_plain isPlainSuffix_kt mem longer⟩
  rintro targets resolved ⟨target, mem', standard, searched⟩
  obtain rfl := Repository.eq_existingTargets_of_resolve resolved
  exact notMem_missingTests_of_standard isPlainSuffix_kt mem longer mem' standard searched

/-- A source, and a test in the folder for it. -/
def withTest (source test : Text) : Workspace :=
  ⟨.folder "main" (.file source [] .empty) (.folder "test" (.file test [] .empty) .empty), []⟩

/-- The repository at the root, with nothing exempt in it. -/
def wholeTree : Repository := ⟨⟨.root, []⟩, .empty, defaultRules⟩

theorem missingTests_of_standardTest :
    wholeTree.resolve (withTest "A.kt" "ATest.kt") "main/A.kt" =
      .ok (.targets [⟨"test/ATest.kt", "test", .standard⟩]) ∧
    ("main/A.kt" : Text) ∉ missingTests (withTest "A.kt" "ATest.kt") wholeTree.root "reports" ".kt"
      wholeTree.registry := by
  have resolved : wholeTree.resolve (withTest "A.kt" "ATest.kt") "main/A.kt" =
      .ok (.targets [⟨"test/ATest.kt", "test", .standard⟩]) := by
    decide
  have mem : Text.join "/" ["main", "A.kt"] ∈
      search (withTest "A.kt" "ATest.kt") wholeTree.root "reports" ".kt" wholeTree.registry :=
    mem_search_of_isSearched ⟨[], by decide⟩ ⟨by decide, by decide, by decide⟩
  have searched : IsSearchedTest wholeTree (withTest "A.kt" "ATest.kt") "reports"
      ⟨"test/ATest.kt", "test", .standard⟩ :=
    ⟨[], ["test", "ATest.kt"], rfl, rfl, by decide, by decide⟩
  obtain ⟨unreported, _⟩ := missingTests_of_resolved wholeTree _ "reports" mem (by decide)
  exact ⟨resolved, unreported _ resolved ⟨_, List.mem_singleton_self _, rfl, searched⟩⟩

/-- The source is reported if it is so among the two files. -/
theorem mem_missingTests_withTest {source test : Text}
    (proper : (directoryAt (withTest source test) wholeTree.root).IsProper)
    (mem : Text.join "/" ["main", source] ∈
      search (withTest source test) wholeTree.root reports extension wholeTree.registry)
    (reported : IsReported extension [Text.join "/" ["main", source], Text.join "/" ["test", test]]
      (Text.join "/" ["main", source])) :
    Text.join "/" ["main", source] ∈
      missingTests (withTest source test) wholeTree.root reports extension wholeTree.registry := by
  refine mem_withoutTest_iff.2 ⟨mem, reported.1, fun other mem' => reported.2 other ?_⟩
  obtain ⟨names, isFile, _, rfl⟩ := (mem_searchedFiles_iff proper).1 mem'
  have top : directoryAt (withTest source test) wholeTree.root = (withTest source test).top := rfl
  have apart : ("main" : Text) ∉ [("test" : Text)] := by decide
  rw [top, withTest, holdsFile_folder_iff apart, holdsFile_folder_iff List.not_mem_nil] at isFile
  simp only [holdsFile_file_iff (d := .empty) List.not_mem_nil, not_holdsFile_empty,
    or_false] at isFile
  rcases isFile with ⟨_, rfl, rfl⟩ | ⟨_, rfl, rfl⟩
  · exact List.mem_cons_self
  · exact List.mem_cons_of_mem _ List.mem_cons_self

/-- A source is reported whose only test is a local one, though it is resolved to that.  So is one
whose name is the extension: its test has no suffix, and so another extension. -/
theorem resolved_source_is_reported :
    (wholeTree.resolve (withTest "A.kt" "ALocalTest.kt") "main/A.kt" =
        .ok (.targets [⟨"test/ALocalTest.kt", "test", .localTest⟩]) ∧
      IsSearchedTest wholeTree (withTest "A.kt" "ALocalTest.kt") "reports"
        ⟨"test/ALocalTest.kt", "test", .localTest⟩ ∧
      ("main/A.kt" : Text) ∈ missingTests (withTest "A.kt" "ALocalTest.kt") wholeTree.root "reports"
        ".kt" wholeTree.registry) ∧
    wholeTree.resolve (withTest ".kt" ".ktTest") "main/.kt" =
        .ok (.targets [⟨"test/.ktTest", "test", .standard⟩]) ∧
      IsSearchedTest wholeTree (withTest ".kt" ".ktTest") "reports"
        ⟨"test/.ktTest", "test", .standard⟩ ∧
      ("main/.kt" : Text) ∈ missingTests (withTest ".kt" ".ktTest") wholeTree.root "reports" ".kt"
        wholeTree.registry := by
  have mem : Text.join "/" ["main", "A.kt"] ∈
      search (withTest "A.kt" "ALocalTest.kt") wholeTree.root "reports" ".kt" wholeTree.registry :=
    mem_search_of_isSearched ⟨[], by decide⟩ ⟨by decide, by decide, by decide⟩
  have mem' : Text.join "/" ["main", ".kt"] ∈
      search (withTest ".kt" ".ktTest") wholeTree.root "reports" ".kt" wholeTree.registry :=
    mem_search_of_isSearched ⟨[], by decide⟩ ⟨by decide, by decide, by decide⟩
  refine ⟨⟨by decide, ?_, ?_⟩, by decide, ?_, ?_⟩
  · exact ⟨[], ["test", "ALocalTest.kt"], rfl, rfl, by decide, by decide⟩
  · exact mem_missingTests_withTest (by decide) mem (by decide)
  · exact ⟨[], ["test", ".ktTest"], rfl, rfl, by decide, by decide⟩
  · exact mem_missingTests_withTest (by decide) mem' (by decide)

end PresenceCheck

end FileCoverage

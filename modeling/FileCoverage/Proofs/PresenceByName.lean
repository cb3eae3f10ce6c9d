import FileCoverage.PresenceCheck
import FileCoverage.Proofs.PathEnding
import FileCoverage.Proofs.TestName

/-!
# Presence of tests, by name

A file has a test, as it is meant, if its name ends with `Test` and the extension, or if a file has
its name with `Test` put before the extension.  The check reads stem and suffix of the normalized
path instead.  Where normalizing leaves the names, the two agree exactly if every name that ends
with `Test` and the extension has the extension for its suffix, and there are not both a file whose
name is the extension and one whose name is `Test` and the extension.
-/

namespace FileCoverage

/-! ### Small directories -/

namespace Directory

variable {skip : Text → Bool} {name folder : Text} {content : Bytes} {inside : Directory}

theorem listing_file : (file name content .empty).listing skip = [[name]] := by
  simp [listing, contents, assemble, sortFolders, Text.sorted]

theorem listing_file_folder (kept : skip folder = false) :
    (file name content (.folder folder inside .empty)).listing skip =
      [name] :: (inside.listing skip).map (folder :: ·) := by
  simp [listing, contents, assemble, sortFolders, Text.sorted, kept]

end Directory

/-! ### What is reported -/

namespace PresenceCheck

open FileCoverage.Path Layout

variable {extension file other : Text} {files : List Text}

/-- The name of a file, as its path is written. -/
def baseName (file : Text) : Text := (Path.ofText file).name

/-- The name of a file without the extension at its end. -/
def baseOf (extension file : Text) : Text :=
  (baseName file).take ((baseName file).length - extension.length)

/-- By its name a file is no test, and no file has its name with `Test` before the extension. -/
def IsUntested (extension : Text) (files : List Text) (file : Text) : Prop :=
  ¬ ("Test" : Text) ++ extension <:+ baseName file ∧
    ∀ other ∈ files, baseName other ≠ baseOf extension file ++ "Test" ++ extension

instance (extension : Text) (files : List Text) : DecidablePred (IsUntested extension files) :=
  fun _ => inferInstanceAs (Decidable (_ ∧ _))

/-- The files that are untested by their names, in order. -/
def untested (extension : Text) (files : List Text) : List Text :=
  Text.sorted (files.filter fun file => IsUntested extension files file)

/-- The check takes a file for production code and does not find its test. -/
def IsReported (extension : Text) (files : List Text) (file : Text) : Prop :=
  isTestFile file (some extension) = false ∧
    ∀ other ∈ files, isTestFile other (some extension) = true →
      baseName other ≠ expectedTestName file

instance (extension : Text) (files : List Text) : DecidablePred (IsReported extension files) :=
  fun _ => inferInstanceAs (Decidable (_ ∧ _))

theorem withoutTest_eq (extension : Text) (files : List Text) :
    withoutTest extension files =
      Text.sorted (files.filter fun file => IsReported extension files file) := by
  rw [withoutTest, List.partition_eq_filter_filter]
  simp only [List.filter_filter]
  congr 1
  refine List.filter_congr fun file _ => ?_
  rw [Bool.eq_iff_iff, decide_eq_true_iff, IsReported, Bool.and_eq_true, and_comm,
    Function.comp_apply, Bool.not_eq_true', Bool.not_eq_true']
  refine and_congr_right fun _ => ?_
  rw [List.contains_eq_mem, decide_eq_false_iff_not, List.mem_map]
  simp only [List.mem_filter, not_exists, not_and, and_imp]
  rfl

theorem mem_withoutTest_iff :
    file ∈ withoutTest extension files ↔ file ∈ files ∧ IsReported extension files file := by
  rw [withoutTest_eq, Text.sorted, List.mem_mergeSort, List.mem_filter, decide_eq_true_iff]

theorem mem_untested_iff :
    file ∈ untested extension files ↔ file ∈ files ∧ IsUntested extension files file := by
  rw [untested, Text.sorted, List.mem_mergeSort, List.mem_filter, decide_eq_true_iff]

theorem withoutTest_eq_untested_iff : withoutTest extension files = untested extension files ↔
    ∀ file ∈ files, (IsReported extension files file ↔ IsUntested extension files file) := by
  constructor
  · intro same file mem
    have iff : file ∈ withoutTest extension files ↔ file ∈ untested extension files := by rw [same]
    rwa [mem_withoutTest_iff, mem_untested_iff, and_iff_right mem, and_iff_right mem] at iff
  · intro agree
    rw [withoutTest_eq, untested]
    congr 1
    exact List.filter_congr fun file mem => decide_eq_decide.2 (agree file mem)

/-- The suffix tells the tests: each of them has the extension for its suffix.  A file whose name is
the extension has no suffix; if it is there, its test is not. -/
structure TellsTests (extension : Text) (files : List Text) : Prop where
  suffix : ∀ file ∈ files, ("Test" : Text) ++ extension <:+ baseName file →
    (ofText file).suffix = extension
  apart : extension ≠ [] → extension ∈ files.map baseName →
    ("Test" : Text) ++ extension ∉ files.map baseName

/-! ### Names that normalizing leaves -/

theorem isTestFile_iff : isTestFile file (some extension) = true ↔
    (RepositoryPath.path file).suffix = extension ∧
      testSuffix <:+ (RepositoryPath.path file).stem := by
  simp [isTestFile]

/-- Normalizing the path of a file leaves its name. -/
def KeepsName (file : Text) : Prop := (RepositoryPath.path file).name = baseName file

theorem KeepsName.isTestFile_iff (keeps : KeepsName file) :
    isTestFile file (some extension) = true ↔
      (cutSuffix (baseName file)).2 = extension ∧ testSuffix <:+ (cutSuffix (baseName file)).1 := by
  rw [PresenceCheck.isTestFile_iff, stem, suffix, keeps]

theorem KeepsName.expectedTestName_eq (keeps : KeepsName file) :
    expectedTestName file = testName testSuffix (baseName file) := by
  rw [expectedTestName, testName, ← keeps]
  rfl

/-! ### Extensions that are suffixes -/

/-- A dot and some characters that are no dots, as a suffix is. -/
def IsPathSuffix (extension : Text) : Prop :=
  ∃ more, extension = '.' :: more ∧ more ≠ [] ∧ '.' ∉ more

theorem isPathSuffix_cutSuffix {name : Text} (ne : (cutSuffix name).2 ≠ []) :
    IsPathSuffix (cutSuffix name).2 := by
  rcases cutSuffix_cases name with ⟨base, more, _, _, ne', clear, eq⟩ | ⟨_, eq⟩
  · exact ⟨more, by rw [eq], ne', clear⟩
  · rw [eq] at ne
    exact absurd rfl ne

theorem IsPathSuffix.isName (isSuffix : IsPathSuffix extension) : isName extension = true := by
  obtain ⟨more, rfl, ne, _⟩ := isSuffix
  refine (isName_iff _).2 ⟨List.cons_ne_nil _ _, fun eq => ?_⟩
  exact ne (List.cons.inj eq).2

theorem IsPathSuffix.cutSuffix_append (isSuffix : IsPathSuffix extension) {base : Text}
    (ne : base ≠ []) : cutSuffix (base ++ extension) = (base, extension) := by
  obtain ⟨more, rfl, ne', clear⟩ := isSuffix
  exact cutSuffix_append_dot ne ne' clear

theorem IsPathSuffix.not_final_dot (isSuffix : IsPathSuffix extension) {name : Text}
    (ends : extension <:+ name) : ¬ ['.'] <:+ name := by
  obtain ⟨more, rfl, ne, clear⟩ := isSuffix
  obtain ⟨base, rfl⟩ := ends
  exact Layout.not_final_dot ne clear base

/-- If some file has the extension for its suffix, the others end with it by their names too. -/
theorem suffix_baseName (ends : extension <:+ file)
    (suffix : (cutSuffix (baseName other)).2 = extension) (ne : extension ≠ []) :
    IsPathSuffix extension ∧ extension <:+ baseName file := by
  subst suffix
  have isSuffix := isPathSuffix_cutSuffix ne
  have slash : '/' ∉ (cutSuffix (baseName other)).2 := by
    intro mem
    refine slash_notMem_name other ?_
    rw [← Path.cutSuffix_append (ofText other).name]
    exact List.mem_append_right _ mem
  exact ⟨isSuffix, (suffix_name slash isSuffix.isName ends).1⟩

/-- A file whose suffix is not the extension is reported. -/
theorem isReported_of_suffix_ne (keeps : ∀ other ∈ files, KeepsName other) (mem : file ∈ files)
    (ends : extension <:+ file) (ne : (cutSuffix (baseName file)).2 ≠ extension) :
    IsReported extension files file := by
  refine ⟨Bool.eq_false_iff.2 fun isTest => ?_, fun other mem' isTest same => ?_⟩
  · exact ne ((keeps file mem).isTestFile_iff.1 isTest).1
  · have suffix := ((keeps other mem').isTestFile_iff.1 isTest).1
    rw [(keeps file mem).expectedTestName_eq] at same
    by_cases dotted : ['.'] <:+ baseName file
    · rw [cutSuffix_of_final_dot dotted] at ne
      obtain ⟨isSuffix, ends⟩ := suffix_baseName ends suffix (Ne.symm ne)
      exact isSuffix.not_final_dot ends dotted
    · rw [same, cutSuffix_testName (by decide) dotted] at suffix
      exact ne suffix

/-- The test of a file has the extension for its suffix. -/
theorem TellsTests.suffix_of_eq (tells : TellsTests extension files) (mem : other ∈ files)
    (same : baseName other = baseOf extension file ++ "Test" ++ extension) :
    (ofText other).suffix = extension := by
  refine tells.suffix other mem ?_
  rw [same, List.append_assoc]
  exact List.suffix_append _ _

/-- A file whose suffix is the extension is reported exactly if it is untested. -/
theorem TellsTests.isReported_iff (tells : TellsTests extension files)
    (keeps : ∀ other ∈ files, KeepsName other) (mem : file ∈ files)
    (suffix : (cutSuffix (baseName file)).2 = extension) :
    IsReported extension files file ↔ IsUntested extension files file := by
  obtain ⟨stem, cut⟩ : ∃ stem, cutSuffix (baseName file) = (stem, extension) :=
    ⟨_, Prod.ext rfl suffix⟩
  have name : baseName file = stem ++ extension := by
    rw [← Path.cutSuffix_append (baseName file), cut]
  have base : baseOf extension file = stem := by
    rw [baseOf, name, List.length_append, Nat.add_sub_cancel, List.take_left]
  have isTest : isTestFile file (some extension) = true ↔
      ("Test" : Text) ++ extension <:+ baseName file := by
    rw [(keeps file mem).isTestFile_iff, cut, name, and_iff_right rfl]
    exact (List.suffix_append_self_iff).symm
  have expected : expectedTestName file = baseOf extension file ++ "Test" ++ extension := by
    rw [(keeps file mem).expectedTestName_eq, testName, cut, base]
    rfl
  have found {other : Text} (mem' : other ∈ files)
      (same : baseName other = baseOf extension file ++ "Test" ++ extension) :
      isTestFile other (some extension) = true := by
    have suffix' : (cutSuffix (baseName other)).2 = extension :=
      tells.suffix_of_eq mem' same
    refine (keeps other mem').isTestFile_iff.2 ⟨suffix', ?_⟩
    have whole := (Path.cutSuffix_append (baseName other)).trans same
    rw [suffix'] at whole
    rw [List.append_cancel_right whole]
    exact List.suffix_append _ _
  rw [IsReported, IsUntested, expected, ← isTest, Bool.not_eq_true]
  refine and_congr_right fun _ => forall₂_congr fun other mem' => ?_
  exact ⟨fun ne same => ne (found mem' same) same, fun ne _ => ne⟩

/-- A file whose suffix is not the extension is untested. -/
theorem TellsTests.isUntested (tells : TellsTests extension files) (mem : file ∈ files)
    (ends : extension <:+ file) (ne : (cutSuffix (baseName file)).2 ≠ extension) :
    IsUntested extension files file := by
  refine ⟨fun isTest => ne (tells.suffix file mem isTest), fun other mem' same => ?_⟩
  have suffix : (cutSuffix (baseName other)).2 = extension := tells.suffix_of_eq mem' same
  by_cases nil : extension = []
  · -- Without an extension the name of the test starts with that of the file, dot and all.
    subst nil
    rw [baseOf, List.length_nil, Nat.sub_zero, List.take_length, List.append_nil] at same
    rcases cutSuffix_cases (baseName file) with ⟨base, more, name, ne', _, clear, _⟩ | ⟨_, eq⟩
    · have clear : '.' ∉ more ++ ("Test" : Text) := by
        rw [List.mem_append]
        exact not_or.2 ⟨clear, by decide⟩
      rw [same, name, List.append_assoc, List.cons_append,
        cutSuffix_append_dot ne' (by simp) clear] at suffix
      cases suffix
    · exact ne (by rw [eq])
  · obtain ⟨isSuffix, before, name⟩ := suffix_baseName ends suffix nil
    by_cases empty : before = []
    · rw [empty, List.nil_append] at name
      rw [baseOf, ← name, Nat.sub_self, List.take_zero, List.nil_append] at same
      exact tells.apart nil (name ▸ List.mem_map_of_mem mem) (same ▸ List.mem_map_of_mem mem')
    · rw [← name, isSuffix.cutSuffix_append empty] at ne
      exact ne rfl

/-- Where normalizing leaves the names, the check goes by the names exactly if the suffix tells the
tests. -/
theorem withoutTest_eq_untested_iff_tellsTests (keeps : ∀ file ∈ files, KeepsName file)
    (ends : ∀ file ∈ files, extension <:+ file) :
    withoutTest extension files = untested extension files ↔ TellsTests extension files := by
  rw [withoutTest_eq_untested_iff]
  constructor
  · intro agree
    refine ⟨fun file mem isTest => ?_, fun ne isFile isTest => ?_⟩
    · by_contra suffix
      have reported := isReported_of_suffix_ne keeps mem (ends file mem) suffix
      exact ((agree file mem).1 reported).1 isTest
    · obtain ⟨file, mem, name⟩ := List.mem_map.1 isFile
      obtain ⟨test, mem', name'⟩ := List.mem_map.1 isTest
      have suffix : (cutSuffix (baseName file)).2 ≠ extension := by
        intro suffix
        have whole := Path.cutSuffix_append (baseName file)
        rw [suffix, name] at whole
        exact cutSuffix_fst_ne_nil ne (List.append_left_eq_self.1 whole)
      have reported := isReported_of_suffix_ne keeps mem (ends file mem) suffix
      refine ((agree file mem).1 reported).2 test mem' ?_
      rw [name', baseOf, name, Nat.sub_self, List.take_zero, List.nil_append]
  · intro tells file mem
    by_cases suffix : (cutSuffix (baseName file)).2 = extension
    · exact tells.isReported_iff keeps mem suffix
    · exact iff_of_true (isReported_of_suffix_ne keeps mem (ends file mem) suffix)
        (tells.isUntested mem (ends file mem) suffix)

/-! ### Which extensions are suffixes -/

theorem IsPathSuffix.cutSuffix_of_test (isSuffix : IsPathSuffix extension) {name : Text}
    (isTest : ("Test" : Text) ++ extension <:+ name) :
    (cutSuffix name).2 = extension ∧ testSuffix <:+ (cutSuffix name).1 := by
  obtain ⟨before, rfl⟩ := isTest
  rw [← List.append_assoc, isSuffix.cutSuffix_append (by simp)]
  exact ⟨rfl, List.suffix_append _ _⟩

/-- With an extension that normalizing leaves, a test is known by its name. -/
theorem IsPathSuffix.isTestFile (isSuffix : IsPathSuffix extension)
    (solid : ∀ c ∈ extension.getLast?, Text.isBlank c = false) (backslash : '\\' ∉ extension)
    (ends : extension <:+ file) (isTest : ("Test" : Text) ++ extension <:+ baseName file) :
    isTestFile file (some extension) = true := by
  have ne : extension ≠ [] := ((isName_iff extension).1 isSuffix.isName).1
  have slash : '/' ∉ ("Test" : Text) ++ extension := fun mem =>
    slash_notMem_name file (isTest.subset mem)
  have slash' : '/' ∉ extension := fun mem => slash (List.mem_append_right _ mem)
  have written : ("Test" : Text) ++ extension <:+ file :=
    isTest.trans (suffix_name slash' isSuffix.isName ends).2
  have first : ∀ c ∈ (("Test" : Text) ++ extension).head?, Text.isBlank c = false := by
    rintro c ⟨⟩
    rfl
  have last : ∀ c ∈ (("Test" : Text) ++ extension).getLast?, Text.isBlank c = false := by
    rwa [List.getLast?_append_of_ne_nil _ ne]
  have backslash' : '\\' ∉ ("Test" : Text) ++ extension := by
    rw [List.mem_append]
    exact not_or.2 ⟨by decide, backslash⟩
  have isName' : Path.isName (("Test" : Text) ++ extension) = true :=
    (isName_iff _).2 ⟨List.append_ne_nil_of_right_ne_nil _ ne, fun eq => by cases eq⟩
  have normal := RepositoryPath.suffix_normalize first last slash backslash' written
  exact isTestFile_iff.2 (isSuffix.cutSuffix_of_test (suffix_name slash isName' normal).1)

/-- An extension that is not a suffix is the suffix of no file. -/
theorem isTestFile_eq_false (ne : extension ≠ []) (other : ¬ IsPathSuffix extension)
    (file : Text) : Layout.isTestFile file (some extension) = false := by
  refine Bool.eq_false_iff.2 fun isTest => ?_
  obtain ⟨rfl, _⟩ := isTestFile_iff.1 isTest
  exact other (isPathSuffix_cutSuffix ne)

theorem withoutTest_of_not_isPathSuffix (ne : extension ≠ []) (other : ¬ IsPathSuffix extension)
    (files : List Text) : withoutTest extension files = Text.sorted files := by
  rw [withoutTest_eq, List.filter_eq_self.2]
  intro file _
  refine decide_eq_true ⟨isTestFile_eq_false ne other file, fun test _ isTest => ?_⟩
  rw [isTestFile_eq_false ne other test] at isTest
  cases isTest

/-! ### The files of a repository -/

theorem getLastD_suffix_join (names : List Text) :
    names.getLastD [] <:+ Text.join ['/'] names := by
  rcases List.eq_nil_or_concat names with rfl | ⟨before, last, rfl⟩
  · exact List.suffix_rfl
  · rw [List.concat_eq_append, List.getLastD_concat]
    by_cases nil : before = []
    · have only : Text.join ['/'] (before ++ [last]) = last := by
        rw [nil, List.nil_append, Text.join, List.intercalate_singleton]
      exact ⟨[], only.symm⟩
    · rw [Text.join_append nil (List.cons_ne_nil _ _), Text.join, Text.join,
        List.intercalate_singleton]
      exact (List.suffix_append _ _).trans (List.suffix_append _ _)

theorem suffix_of_mem_search {ws : Workspace} {root : Path} {reports : Text} {registry : Registry}
    (mem : file ∈ search ws root reports extension registry) : extension <:+ file := by
  rw [search, searchedFiles, List.mem_filter, List.mem_map] at mem
  obtain ⟨⟨names, mem, rfl⟩, _⟩ := mem
  have ends := List.isSuffixOf_iff_suffix.1 (List.mem_filter.1 mem).2
  exact ends.trans (getLastD_suffix_join names)

/--
Where normalizing leaves the names of the files, those are reported that are untested by their
names, exactly if every test has the extension for its suffix and there are not both a file with the
name of the extension and its test.  Every test has it if the extension is a dot and characters that
are no dots, and unless these are blanks at the end or backslashes no test is ever reported.  Any
other extension is the suffix of no file: then all files are reported.
-/
theorem missingTests_by_name (ws : Workspace) (root : Path) (reports extension : Text)
    (registry : Registry) :
    ((∀ file ∈ search ws root reports extension registry, KeepsName file) →
      (missingTests ws root reports extension registry =
          untested extension (search ws root reports extension registry) ↔
        TellsTests extension (search ws root reports extension registry))) ∧
    (IsPathSuffix extension →
      (∀ file, ("Test" : Text) ++ extension <:+ baseName file → (ofText file).suffix = extension) ∧
      ((∀ c ∈ extension.getLast?, Text.isBlank c = false) → '\\' ∉ extension →
        ∀ file ∈ missingTests ws root reports extension registry,
          ¬ ("Test" : Text) ++ extension <:+ baseName file)) ∧
    (extension ≠ [] → ¬ IsPathSuffix extension →
      missingTests ws root reports extension registry =
        Text.sorted (search ws root reports extension registry)) := by
  refine ⟨fun keeps => ?_, fun isSuffix => ⟨fun file isTest => ?_, ?_⟩, fun ne other => ?_⟩
  · exact withoutTest_eq_untested_iff_tellsTests keeps fun file mem => suffix_of_mem_search mem
  · exact (isSuffix.cutSuffix_of_test isTest).1
  · intro solid backslash file mem isTest
    obtain ⟨mem, notTest, _⟩ := mem_withoutTest_iff.1 mem
    rw [isSuffix.isTestFile solid backslash (suffix_of_mem_search mem) isTest] at notTest
    cases notTest
  · exact withoutTest_of_not_isPathSuffix ne other _

/-- A file, and its test in a folder. -/
def fileWithTest : Workspace :=
  ⟨.file "A.kt" [] (.folder "test" (.file "ATest.kt" [] .empty) .empty), []⟩

theorem search_fileWithTest : search fileWithTest ⟨.root, []⟩ "reports" ".kt" .empty =
    [("A.kt" : Text), "test/ATest.kt"] := by
  have top : directoryAt fileWithTest ⟨.root, []⟩ =
      .file "A.kt" [] (.folder "test" (.file "ATest.kt" [] .empty) .empty) := by
    decide
  rw [search, searchedFiles, top, Directory.listing_file_folder (by decide),
    Directory.listing_file]
  decide

/-- A test whose extension has two dots. -/
def testOfScript : Workspace := ⟨.file "buildTest.gradle.kts" [] .empty, []⟩

theorem search_testOfScript :
    search testOfScript ⟨.root, []⟩ "reports" ".gradle.kts" .empty =
      [("buildTest.gradle.kts" : Text)] := by
  have top : directoryAt testOfScript ⟨.root, []⟩ =
      .file "buildTest.gradle.kts" [] .empty := by
    decide
  rw [search, searchedFiles, top, Directory.listing_file]
  decide

/-- The test of the file is found by its name, and a test is reported if the extension has two dots.
-/
theorem missingTests_of_fileWithTest :
    missingTests fileWithTest ⟨.root, []⟩ "reports" ".kt" .empty = [] ∧
    (∀ file ∈ missingTests fileWithTest ⟨.root, []⟩ "reports" ".kt" .empty,
      ¬ ("Test.kt" : Text) <:+ baseName file) ∧
    missingTests testOfScript ⟨.root, []⟩ "reports" ".gradle.kts" .empty =
      [("buildTest.gradle.kts" : Text)] := by
  obtain ⟨byName, never, _⟩ := missingTests_by_name fileWithTest ⟨.root, []⟩ "reports" ".kt" .empty
  have isSuffix : IsPathSuffix ".kt" := ⟨"kt", rfl, by decide, by decide⟩
  obtain ⟨tests, unreported⟩ := never isSuffix
  have solid : ∀ c ∈ (".kt" : Text).getLast?, Text.isBlank c = false := by
    rintro c ⟨⟩
    rfl
  have keeps : ∀ file ∈ search fileWithTest ⟨.root, []⟩ "reports" ".kt" .empty,
      KeepsName file := by
    rw [search_fileWithTest]
    unfold KeepsName
    decide
  have apart : (".kt" : Text) ∉
      (search fileWithTest ⟨.root, []⟩ "reports" ".kt" .empty).map baseName := by
    rw [search_fileWithTest]
    decide
  refine ⟨((byName keeps).2 ⟨fun file _ => tests file, fun _ here => absurd here apart⟩).trans ?_,
    unreported solid (by decide), ?_⟩
  · have none : [("A.kt" : Text), "test/ATest.kt"].filter
        (fun file => IsUntested ".kt" [("A.kt" : Text), "test/ATest.kt"] file) = [] := by
      decide
    rw [search_fileWithTest, untested, none]
    exact List.mergeSort_nil
  · obtain ⟨_, _, all⟩ :=
      missingTests_by_name testOfScript ⟨.root, []⟩ "reports" ".gradle.kts" .empty
    have notSuffix : ¬ IsPathSuffix ".gradle.kts" := by
      rintro ⟨more, eq, _, clear⟩
      obtain rfl := (List.cons.inj eq).2
      exact clear (by decide)
    rw [all (by decide) notSuffix, search_testOfScript]
    exact List.mergeSort_singleton _

/-- The suffix of the test is `.kts`, so it is reported. -/
theorem test_of_script_is_reported :
    ("Test.gradle.kts" : Text) <:+ baseName "buildTest.gradle.kts" ∧
    ("buildTest.gradle.kts" : Text) ∈
      missingTests testOfScript ⟨.root, []⟩ "reports" ".gradle.kts" .empty ∧
    ("buildTest.gradle.kts" : Text) ∉
      untested ".gradle.kts" (search testOfScript ⟨.root, []⟩ "reports" ".gradle.kts" .empty) := by
  rw [missingTests, search_testOfScript, mem_withoutTest_iff, mem_untested_iff]
  decide

end PresenceCheck

end FileCoverage

import FileCoverage.Proofs.CanonicalPath
import FileCoverage.Proofs.NearestFolder
import FileCoverage.Proofs.TestName

/-!
# From sources to tests and back

The tests of a source have its path with the nearest folder of production code exchanged for one of
tests, and the source of a test is found by the opposite exchange.  Under rules that share no folder
the one undoes the other exactly if the folder exchanged is the nearest one both ways, and the name
of the source can be read back from that of the test.
-/

namespace FileCoverage.Layout

open FileCoverage.Path RepositoryPath

variable {rules : List LayoutRule} {rule : LayoutRule}
  {pieces names folders before inside : List Text}
  {folder name file source ending path : Text} {place : Nat}

/-! ### The folders of rules -/

def sourceFolders (rules : List LayoutRule) : List Text := rules.map (·.sourceFolder)

def testFolders (rules : List LayoutRule) : List Text := rules.flatMap (·.testFolders)

/-- Rules of which each has its own folders, with names that a path may start with. -/
structure AreSeparate (rules : List LayoutRule) : Prop where
  sources : ∀ folder ∈ sourceFolders rules, IsFolderName folder
  tests : ∀ folder ∈ testFolders rules, IsFolderName folder
  oneSource : ∀ rule ∈ rules, ∀ rule' ∈ rules, rule.sourceFolder = rule'.sourceFolder → rule' = rule
  oneTest : ∀ rule ∈ rules, ∀ rule' ∈ rules, ∀ folder ∈ rule.testFolders,
    folder ∈ rule'.testFolders → rule' = rule
  apart : ∀ folder ∈ sourceFolders rules, folder ∉ testFolders rules

theorem areSeparate_defaultRules : AreSeparate defaultRules := by
  constructor <;> decide

theorem mem_sourceFolders (mem : rule ∈ rules) : rule.sourceFolder ∈ sourceFolders rules :=
  List.mem_map_of_mem mem

theorem mem_testFolders (mem : rule ∈ rules) (mem' : folder ∈ rule.testFolders) :
    folder ∈ testFolders rules :=
  List.mem_flatMap_of_mem mem mem'

/-- The rules with the folders by which they apply to sources. -/
def bySource (rules : List LayoutRule) : List (Text × LayoutRule) :=
  rules.map fun rule => (rule.sourceFolder, rule)

/-- The rules with the folders by which they apply to tests. -/
def byTest (rules : List LayoutRule) : List (Text × LayoutRule) :=
  rules.flatMap fun rule => rule.testFolders.map fun folder => (folder, rule)

theorem sourceRule?_eq : sourceRule? rules pieces = nearest pieces (bySource rules) := rfl

theorem testRule?_eq : testRule? rules pieces = nearest pieces (byTest rules) := rfl

theorem map_bySource (rules : List LayoutRule) :
    (bySource rules).map (·.1) = sourceFolders rules := by
  simp [bySource, sourceFolders]

theorem map_byTest (rules : List LayoutRule) : (byTest rules).map (·.1) = testFolders rules := by
  simp [byTest, testFolders, List.map_flatMap, Function.comp_def]

theorem mem_bySource_iff :
    (folder, rule) ∈ bySource rules ↔ rule ∈ rules ∧ rule.sourceFolder = folder := by
  simp [bySource]

theorem mem_byTest_iff :
    (folder, rule) ∈ byTest rules ↔ rule ∈ rules ∧ folder ∈ rule.testFolders := by
  simp [byTest]

theorem mem_of_sourceRule? (found : sourceRule? rules pieces = some (rule, place)) :
    rule ∈ rules := by
  obtain ⟨_, _, _, _, _, _, mem, _⟩ := exists_route_of_nearest (sourceRule?_eq ▸ found)
  exact (mem_bySource_iff.1 mem).1

theorem mem_of_testRule? (found : testRule? rules pieces = some (rule, place)) : rule ∈ rules := by
  obtain ⟨_, _, _, _, _, _, mem, _⟩ := exists_route_of_nearest (testRule?_eq ▸ found)
  exact (mem_byTest_iff.1 mem).1

theorem AreSeparate.sourceRule?_route (separate : AreSeparate rules) (mem : rule ∈ rules)
    (clear : ∀ earlier ∈ before, earlier ∉ sourceFolders rules) (inside : List Text) (name : Text) :
    sourceRule? rules (route before rule.sourceFolder inside name) =
      some (rule, before.length) := by
  rw [← map_bySource] at clear
  refine nearest_route (mem_bySource_iff.2 ⟨mem, rfl⟩) (fun other mem' => ?_) clear
  obtain ⟨mem', eq⟩ := mem_bySource_iff.1 mem'
  exact separate.oneSource rule mem other mem' eq.symm

theorem AreSeparate.testRule?_route (separate : AreSeparate rules) (mem : rule ∈ rules)
    (mem' : folder ∈ rule.testFolders) (clear : ∀ earlier ∈ before, earlier ∉ testFolders rules)
    (inside : List Text) (name : Text) :
    testRule? rules (route before folder inside name) = some (rule, before.length) := by
  rw [← map_byTest] at clear
  refine nearest_route (mem_byTest_iff.2 ⟨mem, mem'⟩) (fun other mem'' => ?_) clear
  obtain ⟨mem'', here⟩ := mem_byTest_iff.1 mem''
  exact separate.oneTest rule mem other mem'' folder mem' here

/-! ### Files in folders -/

/-- The path of a file in folders. -/
def fileIn (folders : List Text) (file : Text) : Text :=
  (Path.ofPieces (folders ++ [file])).toText

theorem sibling_eq (folders : List Text) (stem ending suffix : Text) :
    sibling folders stem ending suffix = fileIn folders (stem ++ ending ++ suffix) := rfl

theorem fileIn_eq_join (canonical : AreCanonical (folders ++ [file])) :
    fileIn folders file = Text.join ['/'] (folders ++ [file]) := by
  have plain := canonical.plain
  rw [fileIn, ofPieces_of_notMem fun name mem => (plain name mem).slash,
    List.filter_eq_self.2 fun name mem => (plain name mem).isName,
    toText_relative canonical.ne_nil]

/-- A path tells the folders and the file if there are as many names: a file whose name is a dot
would be missing. -/
theorem eq_of_fileIn_eq_join (canonical : AreCanonical names)
    (clear : ∀ piece ∈ folders ++ [file], '/' ∉ piece ∧ '\\' ∉ piece)
    (length : folders.length + 1 = names.length)
    (eq : fileIn folders file = Text.join ['/'] names) : folders ++ [file] = names := by
  have plain : ∀ name ∈ (folders ++ [file]).filter isName, IsFileName name := by
    intro name mem
    obtain ⟨mem, isName⟩ := List.mem_filter.1 mem
    exact ⟨isName, (clear name mem).1, (clear name mem).2⟩
  have read := congrArg ofText eq
  rw [fileIn, ofPieces_of_notMem fun piece mem => (clear piece mem).1, ofText_toText plain,
    ofText_join canonical.plain canonical.ne_nil] at read
  have kept : (folders ++ [file]).filter isName = names := congrArg Path.names read
  rw [← kept]
  refine (List.filter_sublist.eq_of_length ?_).symm
  rw [kept, List.length_append, List.length_singleton, length]

theorem clear_exchange (canonical : AreCanonical pieces) (plain : IsFileName folder)
    (slash : '/' ∉ file) (backslash : '\\' ∉ file) (place : Nat) :
    ∀ piece ∈ exchange pieces place folder ++ [file], '/' ∉ piece ∧ '\\' ∉ piece := by
  rw [List.forall_mem_append, List.forall_mem_singleton]
  refine ⟨fun piece mem => ?_, slash, backslash⟩
  rcases mem_of_mem_exchange mem with kept | rfl
  · exact ⟨(canonical.plain piece kept).slash, (canonical.plain piece kept).backslash⟩
  · exact ⟨plain.slash, plain.backslash⟩

/-! ### Sources of tests -/

theorem sourceForTest?_eq_some_iff (canonical : AreCanonical names) :
    sourceForTest? rules (Text.join ['/'] names) = some path ↔
      ∃ source rule place, testedName? (names.getLastD []) = some source ∧
        testRule? rules names = some (rule, place) ∧
        fileIn (exchange names place rule.sourceFolder) source = path := by
  have stem : (⟨.relative, names⟩ : Path).stem = (cutSuffix (names.getLastD [])).1 := rfl
  have suffix : (⟨.relative, names⟩ : Path).suffix = (cutSuffix (names.getLastD [])).2 := rfl
  have pieces : (⟨.relative, names⟩ : Path).pieces = names := rfl
  rw [sourceForTest?, canonical.path_join, testedName?]
  simp only [stem, suffix, pieces, sibling_eq]
  cases testedStem? (cutSuffix (names.getLastD [])).1 with
  | none => simp
  | some base =>
      rcases testRule? rules names with _ | ⟨rule, place⟩
      · simp
      · simp

/-! ### Tests of sources -/

theorem distinct_append_singleton (targets : List TestTarget) (target : TestTarget) :
    distinct (targets ++ [target]) =
      if (distinct targets).any (·.testPath = target.testPath) then distinct targets
      else distinct targets ++ [target] := by
  rw [distinct, distinct, List.foldl_append]
  rfl

theorem mem_map_distinct_iff (targets : List TestTarget) :
    path ∈ (distinct targets).map (·.testPath) ↔ path ∈ targets.map (·.testPath) := by
  induction targets using List.reverseRecOn with
  | nil => rfl
  | append_singleton targets target ih =>
      rw [distinct_append_singleton, List.map_append, List.mem_append, ← ih]
      split
      · next known =>
          refine ⟨.inl, fun either => either.elim id fun last => ?_⟩
          obtain ⟨other, mem, same⟩ := List.any_eq_true.1 known
          obtain rfl := List.mem_singleton.1 last
          exact List.mem_map.2 ⟨other, mem, of_decide_eq_true same⟩
      · rw [List.map_append, List.mem_append]

theorem mem_map_candidatesAt_iff (names : List Text) :
    path ∈ (candidatesAt ⟨.relative, names⟩ rule place).map (·.testPath) ↔
      ∃ folder ∈ rule.testFolders, ∃ ending ∈ endings,
        fileIn (exchange names place folder) (testName ending (names.getLastD [])) = path := by
  rw [candidatesAt, mem_map_distinct_iff, List.map_flatMap]
  change path ∈ rule.testFolders.flatMap (fun folder => endings.map fun ending =>
    fileIn (exchange names place folder) (testName ending (names.getLastD []))) ↔ _
  simp only [List.mem_flatMap, List.mem_map]

theorem testCandidates_join (canonical : AreCanonical names) :
    testCandidates rules (Text.join ['/'] names) =
      match sourceRule? rules names with
      | none => []
      | some (rule, place) => candidatesAt ⟨.relative, names⟩ rule place := by
  rw [testCandidates, canonical.path_join]
  rfl

/-! ### One test and its source -/

theorem isFileName_of_route (canonical : AreCanonical (route before folder inside name)) :
    IsFileName name :=
  canonical.plain name (List.mem_of_getLast? (getLast?_route before folder inside name))

theorem solid_of_route (canonical : AreCanonical (route before folder inside name)) :
    ∀ c ∈ name.getLast?, Text.isBlank c = false :=
  canonical.last name (getLast?_route before folder inside name)

theorem fileIn_eq_route (canonical : AreCanonical (route before folder inside name)) :
    fileIn (before ++ folder :: inside) name =
      Text.join ['/'] (route before folder inside name) := by
  rw [← route_eq] at canonical ⊢
  exact fileIn_eq_join canonical

/-- If the nearest folder of one path is exchanged and the other path is there, the folders before
are none of those that might have been exchanged. -/
theorem clear_of_fileIn_exchange_eq {α : Type} {candidates : List (Text × α)} {a : α}
    {folder' name' other : Text}
    (found : nearest (route before folder inside name) candidates = some (a, place))
    (apart : other ∉ candidates.map (·.1)) (plain : IsFileName other)
    (slash : '/' ∉ file) (backslash : '\\' ∉ file)
    (canonical : AreCanonical (route before folder inside name))
    (canonical' : AreCanonical (route before folder' inside name'))
    (eq : fileIn (exchange (route before folder inside name) place other) file =
      Text.join ['/'] (route before folder' inside name')) :
    (∀ earlier ∈ before, earlier ∉ candidates.map (·.1)) ∧ file = name' := by
  have length : (exchange (route before folder inside name) place other).length + 1 =
      (route before folder' inside name').length := by
    rw [length_exchange found, route, route]
    simp
  have names := eq_of_fileIn_eq_join canonical'
    (clear_exchange canonical plain slash backslash place) length eq
  rw [← route_eq before folder' inside name'] at names
  exact ⟨notMem_of_exchange_eq found apart (List.append_inj_left' names rfl),
    List.singleton_inj.1 (List.append_inj_right' names rfl)⟩

/-- The source of a test is the one it was made for if none of the folders before is one of tests
and the name can be read back. -/
theorem AreSeparate.sourceForTest?_fileIn_iff (separate : AreSeparate rules) (mem : rule ∈ rules)
    (mem' : folder ∈ rule.testFolders) (isEnding : ending ∈ endings)
    (canonical : AreCanonical (route before rule.sourceFolder inside name)) :
    sourceForTest? rules (fileIn (before ++ folder :: inside) (testName ending name)) =
        some (Text.join ['/'] (route before rule.sourceFolder inside name)) ↔
      (∀ earlier ∈ before, earlier ∉ testFolders rules) ∧
        testedName? (testName ending name) = some name := by
  have plain := isFileName_testName (isFileName_of_route canonical) isEnding
  have test : AreCanonical (route before folder inside (testName ending name)) :=
    canonical.exchange (separate.tests folder (mem_testFolders mem mem')) plain
      (solid_testName (solid_of_route canonical) isEnding)
  rw [fileIn_eq_route test, sourceForTest?_eq_some_iff test, getLastD_route]
  constructor
  · rintro ⟨source, other, place, back, found, eq⟩
    have isFolder := mem_sourceFolders (mem_of_testRule? found)
    obtain ⟨clear, rfl⟩ := clear_of_fileIn_exchange_eq (testRule?_eq ▸ found)
      (map_byTest rules ▸ separate.apart _ isFolder) (separate.sources _ isFolder).toIsFileName
      (fun here => plain.slash (mem_of_mem_testedName? back here))
      (fun here => plain.backslash (mem_of_mem_testedName? back here)) test canonical eq
    exact ⟨map_byTest rules ▸ clear, back⟩
  · rintro ⟨clear, back⟩
    refine ⟨name, rule, before.length, back, separate.testRule?_route mem mem' clear _ _, ?_⟩
    rw [exchange_route, fileIn_eq_route canonical]

/-- A test is one of its source if none of the folders before is one of production code. -/
theorem AreSeparate.mem_map_testCandidates_iff (separate : AreSeparate rules) (mem : rule ∈ rules)
    (mem' : folder ∈ rule.testFolders) (suffixed : (cutSuffix name).2 ≠ [])
    (back : testedName? name = some source)
    (canonical : AreCanonical (route before folder inside name)) :
    Text.join ['/'] (route before folder inside name) ∈ (testCandidates rules
        (fileIn (before ++ rule.sourceFolder :: inside) source)).map (·.testPath) ↔
      ∀ earlier ∈ before, earlier ∉ sourceFolders rules := by
  have plain := isFileName_source (isFileName_of_route canonical) suffixed back
  have isSource : AreCanonical (route before rule.sourceFolder inside source) :=
    canonical.exchange (separate.sources _ (mem_sourceFolders mem)) plain
      (solid_source (solid_of_route canonical) suffixed back)
  rw [fileIn_eq_route isSource, testCandidates_join isSource]
  constructor
  · intro isTest
    split at isTest
    · cases isTest
    · next other place found =>
        obtain ⟨folder', mem'', ending, isEnding, eq⟩ := (mem_map_candidatesAt_iff _).1 isTest
        rw [getLastD_route] at eq
        have isFolder := mem_testFolders (mem_of_sourceRule? found) mem''
        have plain' := isFileName_testName plain isEnding
        have apart : folder' ∉ sourceFolders rules := fun here => separate.apart _ here isFolder
        obtain ⟨clear, _⟩ := clear_of_fileIn_exchange_eq (sourceRule?_eq ▸ found)
          (map_bySource rules ▸ apart) (separate.tests _ isFolder).toIsFileName
          plain'.slash plain'.backslash isSource canonical eq
        exact map_bySource rules ▸ clear
  · intro clear
    rw [separate.sourceRule?_route mem clear]
    refine (mem_map_candidatesAt_iff _).2 ?_
    obtain ⟨ending, isEnding, rfl⟩ := exists_testName_eq suffixed back
    refine ⟨folder, mem', ending, isEnding, ?_⟩
    rw [exchange_route, getLastD_route, fileIn_eq_route canonical]

/-! ### All tests and their source -/

theorem pieces_of_normal {t : Text} (normal : normalize t = t) :
    (ofText t).pieces = (ofText t).names := by
  rw [pieces, isAnchored, isRelative_of_normal normal]
  rfl

theorem AreSeparate.forall_sourceForTest?_join_iff (separate : AreSeparate rules)
    (canonical : AreCanonical names) (found : sourceRule? rules names = some (rule, place))
    (tested : rule.testFolders ≠ []) :
    (∀ path ∈ (testCandidates rules (Text.join ['/'] names)).map (·.testPath),
        sourceForTest? rules path = some (Text.join ['/'] names)) ↔
      (∀ earlier ∈ names.take place, earlier ∉ testFolders rules) ∧
        ¬ localMark <:+ (cutSuffix (names.getLastD [])).1 ∧ ¬ ['.'] <:+ names.getLastD [] := by
  rw [testCandidates_join canonical, found]
  obtain ⟨before, folder, inside, name, rfl, rfl, candidate, _⟩ :=
    exists_route_of_nearest (sourceRule?_eq ▸ found)
  obtain ⟨mem, rfl⟩ := mem_bySource_iff.1 candidate
  obtain ⟨ne, ne'⟩ := (isName_iff name).1 (isFileName_of_route canonical).isName
  simp only [mem_map_candidatesAt_iff, exchange_route, take_route, getLastD_route,
    ← forall_testedName?_iff ne ne']
  constructor
  · intro all
    obtain ⟨folder, mem'⟩ := List.exists_mem_of_ne_nil _ tested
    have each (ending : Text) (isEnding : ending ∈ endings) :=
      (separate.sourceForTest?_fileIn_iff mem mem' isEnding canonical).1
        (all _ ⟨folder, mem', ending, isEnding, rfl⟩)
    exact ⟨(each testSuffix (by decide)).1, fun ending isEnding => (each ending isEnding).2⟩
  · rintro ⟨clear, back⟩ _ ⟨folder, mem', ending, isEnding, rfl⟩
    exact (separate.sourceForTest?_fileIn_iff mem mem' isEnding canonical).2
      ⟨clear, back ending isEnding⟩

theorem ne_here_of_sourceRule? {p : Path}
    (found : sourceRule? rules p.pieces = some (rule, place)) : p ≠ here := by
  rintro rfl
  obtain ⟨before, folder, inside, name, empty, _⟩ :=
    exists_route_of_nearest (sourceRule?_eq ▸ found)
  exact route_ne_nil before folder inside name empty.symm

/-- A file has tests by a rule that names folders for them. -/
theorem exists_sourceRule?_eq_some (tested : testCandidates rules path ≠ []) :
    ∃ rule place, sourceRule? rules (RepositoryPath.path path).pieces = some (rule, place) ∧
      rule.testFolders ≠ [] := by
  rw [testCandidates] at tested
  rcases found : sourceRule? rules (RepositoryPath.path path).pieces with _ | ⟨rule, place⟩
  · simp only [found, ne_eq, not_true] at tested
  · refine ⟨rule, place, rfl, fun none => ?_⟩
    simp only [found, candidatesAt, none] at tested
    exact tested rfl

/-- The tests of a source lead back to it if no folder before the one exchanged is one of tests and
its name can be read back from theirs. -/
theorem AreSeparate.forall_sourceForTest?_iff (separate : AreSeparate rules)
    (normal : normalize path = path) (written : (ofText path).toText = path)
    (tested : testCandidates rules path ≠ []) :
    ∃ rule place, sourceRule? rules (ofText path).pieces = some (rule, place) ∧
      ((∀ target ∈ testCandidates rules path, sourceForTest? rules target.testPath = some path) ↔
        (∀ earlier ∈ (ofText path).pieces.take place, earlier ∉ testFolders rules) ∧
          ¬ localMark <:+ (ofText path).stem ∧ ¬ ['.'] <:+ (ofText path).name) := by
  obtain ⟨rule, place, found, folders⟩ := exists_sourceRule?_eq_some tested
  rw [RepositoryPath.path, normal] at found
  have canonical : IsCanonical path := ⟨normal, written, ne_here_of_sourceRule? found⟩
  refine ⟨rule, place, found, ?_⟩
  rw [pieces_of_normal normal] at found ⊢
  have iff := separate.forall_sourceForTest?_join_iff canonical.areCanonical found folders
  rw [canonical.join_names, List.forall_mem_map] at iff
  exact iff

/-- A test leads to a source that it is one of the tests of if no folder before the one exchanged is
one of production code. -/
theorem AreSeparate.mem_testCandidates_iff {source : Text} (separate : AreSeparate rules)
    (normal : normalize path = path) (written : (ofText path).toText = path)
    (suffixed : (ofText path).suffix ≠ []) (found : sourceForTest? rules path = some source) :
    ∃ place, (ofText path).pieces.dropLast.findIdx? (· ∈ testFolders rules) = some place ∧
      (path ∈ (testCandidates rules source).map (·.testPath) ↔
        ∀ earlier ∈ (ofText path).pieces.take place, earlier ∉ sourceFolders rules) := by
  have ne : ofText path ≠ here := fun eq => suffixed (by rw [eq]; rfl)
  have canonical : IsCanonical path := ⟨normal, written, ne⟩
  have names := canonical.areCanonical
  rw [← canonical.join_names, sourceForTest?_eq_some_iff names] at found
  obtain ⟨file, rule, place, back, found, rfl⟩ := found
  obtain ⟨before, folder, inside, name, eq, rfl, candidate, clear⟩ :=
    exists_route_of_nearest (testRule?_eq ▸ found)
  obtain ⟨mem, mem'⟩ := mem_byTest_iff.1 candidate
  rw [map_byTest] at clear
  rw [pieces_of_normal normal]
  have join := canonical.join_names
  change (cutSuffix ((ofText path).names.getLastD [])).2 ≠ [] at suffixed
  rw [eq, getLastD_route] at suffixed back
  rw [eq] at names join ⊢
  refine ⟨before.length, ?_, ?_⟩
  · exact findIdx?_dropLast_route (mem_testFolders mem mem') clear
  · rw [take_route, exchange_route]
    have iff := separate.mem_map_testCandidates_iff mem mem' suffixed back names
    rwa [join] at iff

/-! ### The rules of a repository that names none -/

/--
The tests of a file lead back to it exactly if no folder before the one exchanged is one of tests,
the stem does not end with `Local` and the name does not end with a dot.
-/
theorem forall_sourceForTest?_default_iff {path : Text} (normal : normalize path = path)
    (written : (ofText path).toText = path) (tested : testCandidates defaultRules path ≠ []) :
    ∃ rule place, sourceRule? defaultRules (ofText path).pieces = some (rule, place) ∧
      ((∀ target ∈ testCandidates defaultRules path,
          sourceForTest? defaultRules target.testPath = some path) ↔
        (∀ earlier ∈ (ofText path).pieces.take place,
          earlier ∉ (["test", "sharedTest", "javatests"] : List Text)) ∧
        ¬ ("Local" : Text) <:+ (ofText path).stem ∧ ¬ ("." : Text) <:+ (ofText path).name) :=
  areSeparate_defaultRules.forall_sourceForTest?_iff normal written tested

/-- All four tests of a file lead back to it. -/
theorem tests_of_cart_lead_back :
    normalize "app/src/main/java/Cart.kt" = "app/src/main/java/Cart.kt" ∧
    (ofText "app/src/main/java/Cart.kt").toText = "app/src/main/java/Cart.kt" ∧
    testCandidates defaultRules "app/src/main/java/Cart.kt" ≠ [] ∧
    ∀ target ∈ testCandidates defaultRules "app/src/main/java/Cart.kt",
      sourceForTest? defaultRules target.testPath = some "app/src/main/java/Cart.kt" := by
  have normal : normalize "app/src/main/java/Cart.kt" = "app/src/main/java/Cart.kt" := by decide
  have written : (ofText "app/src/main/java/Cart.kt").toText = "app/src/main/java/Cart.kt" := by
    decide
  have tested : testCandidates defaultRules "app/src/main/java/Cart.kt" ≠ [] := by decide
  obtain ⟨rule, place, found, iff⟩ := forall_sourceForTest?_default_iff normal written tested
  obtain ⟨_, rfl⟩ : _ = rule ∧ 2 = place := Prod.mk.inj (Option.some.inj found)
  exact ⟨normal, written, tested, iff.2 (by decide)⟩

/--
A test is one of those of the file it leads to exactly if no folder before the outermost one of
tests is one of production code.
-/
theorem mem_testCandidates_default_iff {path source : Text} (normal : normalize path = path)
    (written : (ofText path).toText = path) (suffixed : (ofText path).suffix ≠ [])
    (found : sourceForTest? defaultRules path = some source) :
    ∃ place, (ofText path).pieces.dropLast.findIdx?
        (· ∈ (["test", "sharedTest", "javatests"] : List Text)) = some place ∧
      (path ∈ (testCandidates defaultRules source).map (·.testPath) ↔
        ∀ earlier ∈ (ofText path).pieces.take place,
          earlier ∉ (["main", "java"] : List Text)) :=
  areSeparate_defaultRules.mem_testCandidates_iff normal written suffixed found

/-- The source of a test has tests by another rule if a folder of production code comes earlier. -/
theorem test_of_cart_leads_elsewhere :
    normalize "java/test/CartLocalTest.kt" = "java/test/CartLocalTest.kt" ∧
    (ofText "java/test/CartLocalTest.kt").toText = "java/test/CartLocalTest.kt" ∧
    (ofText "java/test/CartLocalTest.kt").suffix ≠ [] ∧
    sourceForTest? defaultRules "java/test/CartLocalTest.kt" = some "java/main/Cart.kt" ∧
    ("java/test/CartLocalTest.kt" : Text) ∉
      (testCandidates defaultRules "java/main/Cart.kt").map (·.testPath) := by
  have normal : normalize "java/test/CartLocalTest.kt" = "java/test/CartLocalTest.kt" := by decide
  have written : (ofText "java/test/CartLocalTest.kt").toText = "java/test/CartLocalTest.kt" := by
    decide
  have suffixed : (ofText "java/test/CartLocalTest.kt").suffix ≠ [] := by decide
  have source : sourceForTest? defaultRules "java/test/CartLocalTest.kt" =
      some "java/main/Cart.kt" := by
    decide
  obtain ⟨place, found, iff⟩ := mem_testCandidates_default_iff normal written suffixed source
  obtain rfl : 1 = place := Option.some.inj found
  exact ⟨normal, written, suffixed, source, mt iff.1 (by decide)⟩

end FileCoverage.Layout

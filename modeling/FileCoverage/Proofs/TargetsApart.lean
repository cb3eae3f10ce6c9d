import FileCoverage.Build.Artifact
import FileCoverage.Proofs.PresenceOfResolved
import FileCoverage.Proofs.ReportsApart

/-!
# Targets of one run

The labels of the tests of a source file, and the places for their tracefiles, leave out the suffix.
If the name of the file does not end with a dot, the stem of a test has the ending by which it is a
test.  So two tests differ in the folder that is put in or in the end of the stem.  As a name may
hold a colon, a label does not show where the folders end; but under the default rules the labels of
the tests of one file have different lengths.

Different paths may lead to one file.  A `..` in the path of the source may lead back out of the
folder of tests: then the tests in `test` and `sharedTest` are one file, and the places for their
tracefiles are one place.  Nothing else brings two of these places together.
-/

namespace FileCoverage

/-! ### Lengths of joined names -/

theorem Text.length_join_exchange (separator folder folder' : Text) (before inside : List Text) :
    (join separator (before ++ folder :: inside)).length + folder'.length =
      (join separator (before ++ folder' :: inside)).length + folder.length := by
  have alone : ∀ part, join separator [part] = part := fun part => by
    rw [join, List.intercalate_singleton]
  have tail : (join separator (folder :: inside)).length + folder'.length =
      (join separator (folder' :: inside)).length + folder.length := by
    cases inside with
    | nil =>
        rw [alone, alone]
        exact Nat.add_comm _ _
    | cons next inside =>
        simp only [join, List.intercalate_cons_cons, List.length_append]
        omega
  by_cases nil : before = []
  · rw [nil]
    exact tail
  · rw [join_append nil (List.cons_ne_nil _ _), join_append nil (List.cons_ne_nil _ _)]
    simp only [List.length_append]
    omega

/-! ### Ways through a folder that is exchanged -/

namespace Workspace

variable {folder folder' : Text}

/-- Whether two ways meet behind different folders depends on what is inside the folders only: they
meet if it leads back out of them. -/
theorem walk_inside_eq_iff (ne : folder ≠ folder') (inside top top' more : List Text) :
    walk (top ++ folder :: more) inside = walk (top ++ folder' :: more) inside ↔
      walk (top' ++ folder :: more) inside = walk (top' ++ folder' :: more) inside := by
  induction inside generalizing more with
  | nil => simp [walk, ne]
  | cons name inside ih =>
      rw [walk, walk, walk, walk]
      split
      -- A step back leaves the last folder entered; from the one that differs it ends at one place.
      · rcases List.eq_nil_or_concat' more with rfl | ⟨more, last, rfl⟩
        · simp only [List.dropLast_concat]
        · simp only [← List.cons_append, ← List.append_assoc, List.dropLast_concat]
          exact ih more
      · simp only [List.append_assoc, List.cons_append]
        exact ih (more ++ [name])

theorem walk_through (down : folder ≠ "..") (before inside top : List Text) :
    walk top (before ++ folder :: inside) = walk (walk top before ++ [folder]) inside := by
  rw [walk_append, walk, if_neg down]

theorem walk_through_eq_iff (down : folder ≠ "..") (down' : folder' ≠ "..")
    (before inside top top' : List Text) :
    walk top (before ++ folder :: inside) = walk top (before ++ folder' :: inside) ↔
      walk top' (before ++ folder :: inside) = walk top' (before ++ folder' :: inside) := by
  by_cases same : folder = folder'
  · simp only [same]
  · simp only [walk_through down, walk_through down']
    exact walk_inside_eq_iff same inside _ _ []

end Workspace

/-! ### Tests in folders -/

open FileCoverage.Path

/-- The test is in some folders, under a stem that its ending is part of.  The letter in the stem
says that it is neither a dot nor two. -/
structure TestTarget.IsIn (target : TestTarget) (folders : List Text) (stem suffix : Text) :
    Prop where
  read : ofText target.testPath = ⟨.relative, folders ++ [stem ++ suffix]⟩
  cut : cutSuffix (stem ++ suffix) = (stem, suffix)
  below : folders ≠ []
  clear : '/' ∉ stem
  letter : 't' ∈ stem

namespace TestTarget.IsIn

variable {target : TestTarget} {folders : List Text} {stem suffix : Text}

theorem parent_eq (isIn : target.IsIn folders stem suffix) :
    (ofText target.testPath).parent = ⟨.relative, folders⟩ := by
  rw [isIn.read, parent, List.dropLast_concat]

theorem stem_eq (isIn : target.IsIn folders stem suffix) :
    (ofText target.testPath).stem = stem := by
  rw [isIn.read, Path.stem, name, List.getLastD_concat, isIn.cut]

theorem label_eq (isIn : target.IsIn folders stem suffix) :
    target.label = "//" ++ Text.join ['/'] folders ++ ":" ++ stem := by
  rw [label, isIn.parent_eq, isIn.stem_eq, toText_relative isIn.below]

theorem isName (isIn : target.IsIn folders stem suffix) : isName stem = true := by
  refine (isName_iff stem).2 ⟨List.ne_nil_of_mem isIn.letter, fun dot => ?_⟩
  exact absurd (dot ▸ isIn.letter) (by decide)

theorem ne_dots (isIn : target.IsIn folders stem suffix) (more : Text) : stem ++ more ≠ ".." := by
  intro dots
  have letter := List.mem_append_left more isIn.letter
  rw [dots] at letter
  exact absurd letter (by decide)

theorem fallback_eq (isIn : target.IsIn folders stem suffix) (root : Path) :
    Artifact.fallback root target =
      ⟨(root.child "bazel-testlogs").anchor,
        (root.child "bazel-testlogs").names ++ folders ++ [stem, "coverage.dat"]⟩ := by
  have file : ofText FailureCause.artifactName = ⟨.relative, ["coverage.dat"]⟩ := by decide
  have folder : ofText stem = ⟨.relative, [stem]⟩ := by
    rw [ofText_of_notMem isIn.clear, List.filter_cons_of_pos isIn.isName, List.filter_nil]
  rw [Artifact.fallback, isIn.parent_eq, isIn.stem_eq, child_of_relative _ (by rw [file]),
    child_of_relative _ (by rw [folder]), file, folder, List.append_assoc]
  rfl

theorem placeOf_fallback (isIn : target.IsIn folders stem suffix) (ws : Workspace) (root : Path) :
    ws.placeOf (Artifact.fallback root target) =
      Workspace.walk (ws.placeOf (root.child "bazel-testlogs")) folders ++
        [stem, "coverage.dat"] := by
  have ne : stem ≠ ".." := List.append_nil stem ▸ isIn.ne_dots []
  have down : (".." : Text) ∉ [stem, "coverage.dat"] := by
    rw [List.mem_pair, not_or]
    exact ⟨ne.symm, by decide⟩
  rw [isIn.fallback_eq, Workspace.placeOf, Workspace.walk_append, Workspace.walk_append,
    Workspace.walk_of_notMem down]
  rfl

theorem placeOf_testPath (isIn : target.IsIn folders stem suffix) (ws : Workspace) (root : Path) :
    ws.placeOf (root.child target.testPath) =
      Workspace.walk (ws.placeOf root) folders ++ [stem ++ suffix] := by
  have relative : (ofText target.testPath).anchor = .relative := by rw [isIn.read]
  have down : (".." : Text) ∉ [stem ++ suffix] := fun mem =>
    isIn.ne_dots suffix (List.mem_singleton.1 mem).symm
  rw [root.child_of_relative relative, isIn.read, Workspace.placeOf, Workspace.walk_append,
    Workspace.walk_append, Workspace.walk_of_notMem down]
  rfl

/-! ### Two tests of one source -/

variable {a b : TestTarget} {before inside : List Text} {folder folder' ending ending' : Text}

/-- The lengths tell labels apart, wherever there are colons in them. -/
theorem label_ne (isIn : a.IsIn (before ++ folder :: inside) (stem ++ ending) suffix)
    (isIn' : b.IsIn (before ++ folder' :: inside) (stem ++ ending') suffix)
    (lengths : folder.length + ending.length ≠ folder'.length + ending'.length) :
    a.label ≠ b.label := by
  intro same
  have exchange := Text.length_join_exchange ['/'] folder folder' before inside
  have length := congrArg List.length same
  rw [isIn.label_eq, isIn'.label_eq] at length
  simp only [List.length_append] at length
  omega

theorem fallback_ne (isIn : a.IsIn (before ++ folder :: inside) (stem ++ ending) suffix)
    (isIn' : b.IsIn (before ++ folder' :: inside) (stem ++ ending') suffix)
    (ne : ¬ (folder = folder' ∧ ending = ending')) (root : Path) :
    Artifact.fallback root a ≠ Artifact.fallback root b := by
  intro same
  rw [isIn.fallback_eq, isIn'.fallback_eq] at same
  obtain ⟨names, last⟩ := List.append_inj' (congrArg Path.names same) rfl
  have folders := List.append_cancel_left names
  have folder_eq := List.head_eq_of_cons_eq (List.append_cancel_left folders)
  exact ne ⟨folder_eq, List.append_cancel_left (List.head_eq_of_cons_eq last)⟩

/-- The places for the tracefiles of two tests are one if the tests are. -/
theorem placeOf_fallback_eq_iff
    (isIn : a.IsIn (before ++ folder :: inside) (stem ++ ending) suffix)
    (isIn' : b.IsIn (before ++ folder' :: inside) (stem ++ ending') suffix)
    (down : folder ≠ "..") (down' : folder' ≠ "..") (ws : Workspace) (root : Path) :
    ws.placeOf (Artifact.fallback root a) = ws.placeOf (Artifact.fallback root b) ↔
      ws.placeOf (root.child a.testPath) = ws.placeOf (root.child b.testPath) := by
  rw [isIn.placeOf_fallback, isIn'.placeOf_fallback, isIn.placeOf_testPath, isIn'.placeOf_testPath]
  constructor
  · intro same
    obtain ⟨folders, last⟩ := List.append_inj' same rfl
    have ways := (Workspace.walk_through_eq_iff down down' before inside _ (ws.placeOf root)).1
      folders
    rw [ways, List.head_eq_of_cons_eq last]
  · intro same
    obtain ⟨folders, last⟩ := List.append_inj' same rfl
    have ways := (Workspace.walk_through_eq_iff down down' before inside _
      (ws.placeOf (root.child "bazel-testlogs"))).1 folders
    rw [ways, List.append_cancel_right (List.singleton_inj.1 last)]

/-- Without a way back, the tests are at different places. -/
theorem placeOf_testPath_ne (isIn : a.IsIn (before ++ folder :: inside) (stem ++ ending) suffix)
    (isIn' : b.IsIn (before ++ folder' :: inside) (stem ++ ending') suffix)
    (down : (".." : Text) ∉ before ++ folder :: inside)
    (down' : (".." : Text) ∉ before ++ folder' :: inside)
    (ne : ¬ (folder = folder' ∧ ending = ending')) (ws : Workspace) (root : Path) :
    ws.placeOf (root.child a.testPath) ≠ ws.placeOf (root.child b.testPath) := by
  intro same
  rw [isIn.placeOf_testPath, isIn'.placeOf_testPath, Workspace.walk_of_notMem down,
    Workspace.walk_of_notMem down'] at same
  obtain ⟨names, last⟩ := List.append_inj' same rfl
  have folders := List.append_cancel_left names
  have folder_eq := List.head_eq_of_cons_eq (List.append_cancel_left folders)
  have stem_eq := List.append_cancel_right (List.singleton_inj.1 last)
  exact ne ⟨folder_eq, List.append_cancel_left stem_eq⟩

end TestTarget.IsIn

/-! ### Tracefiles that are found where the tests have them -/

namespace Artifact

variable {ws : Workspace} {root : Path} {target a b : TestTarget} {output : Text} {p : Path}

theorem find?_eq_some_iff (silent : mentioned? output = none) :
    find? ws root target output = some p ↔
      ws.holds (fallback root target) = true ∧ fallback root target = p := by
  rw [find?, silent]
  simp

/-- After builds that name no tracefile, one file is found for both targets. -/
def Share (ws : Workspace) (root : Path) (a b : TestTarget) : Prop :=
  ∃ output output' p q, mentioned? output = none ∧ mentioned? output' = none ∧
    find? ws root a output = some p ∧ find? ws root b output' = some q ∧
    ws.placeOf p = ws.placeOf q

theorem share_iff : Share ws root a b ↔
    (ws.holds (fallback root a) = true ∧ ws.holds (fallback root b) = true) ∧
      ws.placeOf (fallback root a) = ws.placeOf (fallback root b) := by
  constructor
  · rintro ⟨output, output', p, q, silent, silent', found, found', same⟩
    obtain ⟨holds, rfl⟩ := (find?_eq_some_iff silent).1 found
    obtain ⟨holds', rfl⟩ := (find?_eq_some_iff silent').1 found'
    exact ⟨⟨holds, holds'⟩, same⟩
  · rintro ⟨⟨holds, holds'⟩, same⟩
    have silent : mentioned? [] = none := rfl
    exact ⟨[], [], _, _, silent, silent, (find?_eq_some_iff silent).2 ⟨holds, rfl⟩,
      (find?_eq_some_iff silent).2 ⟨holds', rfl⟩, same⟩

end Artifact

/-! ### The names of a source -/

namespace RepositoryPath

theorem isFileName_of_mem_names {t name : Text} (mem : name ∈ (path t).names) :
    IsFileName name := by
  obtain ⟨piece, isName⟩ := List.mem_filter.1 mem
  refine ⟨isName, Text.notMem_of_mem_splitOn piece, fun here => backslash_notMem_normalize t ?_⟩
  rw [← Text.join_splitOn '/' (normalize t)]
  exact Text.mem_join_of_mem piece here

theorem pieces_path (t : Text) : (path t).pieces = (path t).names := by
  rw [pieces, isAnchored, path, anchor_ofText (head?_normalize_ne_slash t)]
  rfl

end RepositoryPath

namespace Layout

open RepositoryPath

variable {rules : List LayoutRule} {rule : LayoutRule} {before inside folders : List Text}
  {folder name file path : Text} {variant : Text × TestKind}

theorem ofText_fileIn (plain : ∀ piece ∈ folders ++ [file], IsFileName piece) :
    ofText (fileIn folders file) = ⟨.relative, folders ++ [file]⟩ := by
  rw [fileIn, ofPieces_of_notMem fun piece mem => (plain piece mem).slash,
    List.filter_eq_self.2 fun piece mem => (plain piece mem).isName, ofText_toText plain]

/-- The test of a file with a folder put in. -/
def testAt (before inside : List Text) (name folder : Text) (variant : Text × TestKind) :
    TestTarget :=
  ⟨fileIn (before ++ folder :: inside) (testName variant.1 name), folder, variant.2⟩

/-- The tests of a file have one of the folders of its rule put in, and one of the endings. -/
theorem exists_route_of_testCandidates (tested : testCandidates rules path ≠ []) :
    ∃ before inside name, ∃ rule ∈ rules,
      (RepositoryPath.path path).names = route before rule.sourceFolder inside name ∧
      ∀ target ∈ testCandidates rules path, ∃ folder ∈ rule.testFolders, ∃ variant ∈ variants,
        testAt before inside name folder variant = target := by
  obtain ⟨rule, place, found, _⟩ := exists_sourceRule?_eq_some tested
  obtain ⟨before, folder, inside, name, eq, rfl, candidate, _⟩ :=
    exists_route_of_nearest (sourceRule?_eq ▸ found)
  obtain ⟨mem, rfl⟩ := mem_bySource_iff.1 candidate
  refine ⟨before, inside, name, rule, mem, pieces_path path ▸ eq, fun target isTest => ?_⟩
  rw [testCandidates] at isTest
  simp only [found, candidatesAt] at isTest
  obtain ⟨folder, mem', isTest⟩ := List.mem_flatMap.1 (distinct_subset _ isTest)
  obtain ⟨variant, mem'', rfl⟩ := List.mem_map.1 isTest
  have file : (RepositoryPath.path path).name = name := by
    rw [Path.name, ← pieces_path, eq, getLastD_route]
  refine ⟨folder, mem', variant, mem'', ?_⟩
  rw [testAt, eq, exchange_route, sibling_eq, Path.stem, Path.suffix, file]
  rfl

theorem isIn_testAt (folders : ∀ piece ∈ before ++ folder :: inside, IsFileName piece)
    (plain : IsFileName name) (undotted : ¬ ['.'] <:+ name) (mem : variant ∈ variants) :
    (testAt before inside name folder variant).IsIn (before ++ folder :: inside)
      ((cutSuffix name).1 ++ variant.1) (cutSuffix name).2 := by
  have isEnding : variant.1 ∈ endings := List.mem_map_of_mem mem
  have plain' := isFileName_testName plain isEnding
  have letter : ∀ variant ∈ variants, 't' ∈ variant.1 := by decide
  refine ⟨ofText_fileIn ?_, cutSuffix_testName isEnding undotted, ?_, fun here => ?_, ?_⟩
  · exact List.forall_mem_append.2 ⟨folders, List.forall_mem_singleton.2 plain'⟩
  · exact List.append_ne_nil_of_right_ne_nil _ (List.cons_ne_nil _ _)
  · exact plain'.slash (List.mem_append_left _ here)
  · exact List.mem_append_right _ (letter variant mem)

theorem mem_names_or_eq
    (names : (RepositoryPath.path path).names = route before rule.sourceFolder inside name)
    {piece : Text} (mem : piece ∈ before ++ folder :: inside) :
    piece ∈ (RepositoryPath.path path).names ∨ piece = folder := by
  rw [← exchange_route before rule.sourceFolder inside name, ← names] at mem
  exact mem_of_mem_exchange mem

/-- A folder of tests of the rule makes a test of the file. -/
theorem AreSeparate.isIn_testAt (separate : AreSeparate rules)
    (names : (RepositoryPath.path path).names = route before rule.sourceFolder inside name)
    (undotted : ¬ ['.'] <:+ (RepositoryPath.path path).name) (isRule : rule ∈ rules)
    (isFolder : folder ∈ rule.testFolders) (isVariant : variant ∈ variants) :
    (testAt before inside name folder variant).IsIn (before ++ folder :: inside)
      ((cutSuffix name).1 ++ variant.1) (cutSuffix name).2 := by
  have last : name ∈ (RepositoryPath.path path).names := by
    rw [names]
    exact List.mem_of_getLast? (getLast?_route before rule.sourceFolder inside name)
  rw [Path.name, names, getLastD_route] at undotted
  refine Layout.isIn_testAt (fun piece mem => ?_) (isFileName_of_mem_names last) undotted isVariant
  rcases mem_names_or_eq names mem with there | rfl
  · exact isFileName_of_mem_names there
  · exact (separate.tests _ (mem_testFolders isRule isFolder)).toIsFileName

theorem nodup_testCandidates (rules : List LayoutRule) (path : Text) :
    (testCandidates rules path).Nodup := by
  rw [testCandidates]
  split
  · exact List.nodup_nil
  · exact (nodup_map_distinct _).of_map _

/-! ### The rules of a repository that names none -/

theorem down_of_mem_default : ∀ rule ∈ defaultRules, ∀ folder ∈ rule.testFolders,
    folder ≠ ".." := by
  decide

/-- The lengths of a folder of tests and an ending together tell which they are. -/
theorem eq_of_lengths_default : ∀ rule ∈ defaultRules, ∀ folder ∈ rule.testFolders,
    ∀ folder' ∈ rule.testFolders, ∀ variant ∈ variants, ∀ variant' ∈ variants,
      folder.length + variant.1.length = folder'.length + variant'.1.length →
        folder = folder' ∧ variant = variant' := by
  decide

/-- Two tests of one file have different labels and places for their tracefiles.  These places lead
to one file only if the tests are one file, behind a `..`. -/
theorem apart_of_mem_testCandidates (undotted : ¬ ['.'] <:+ (RepositoryPath.path path).name)
    {a b : TestTarget} (mem : a ∈ testCandidates defaultRules path)
    (mem' : b ∈ testCandidates defaultRules path) (ne : a ≠ b) :
    a.label ≠ b.label ∧ ∀ root, Artifact.fallback root a ≠ Artifact.fallback root b ∧
      ∀ ws : Workspace, (Artifact.Share ws root a b ↔
          (ws.holds (Artifact.fallback root a) = true ∧
            ws.holds (Artifact.fallback root b) = true) ∧
          ws.placeOf (root.child a.testPath) = ws.placeOf (root.child b.testPath)) ∧
        ((".." : Text) ∉ (RepositoryPath.path path).names → ¬ Artifact.Share ws root a b) := by
  obtain ⟨before, inside, name, rule, isRule, names, each⟩ :=
    exists_route_of_testCandidates (List.ne_nil_of_mem mem)
  obtain ⟨folder, isFolder, variant, isVariant, rfl⟩ := each a mem
  obtain ⟨folder', isFolder', variant', isVariant', rfl⟩ := each b mem'
  have a_isIn := areSeparate_defaultRules.isIn_testAt names undotted isRule isFolder isVariant
  have b_isIn := areSeparate_defaultRules.isIn_testAt names undotted isRule isFolder' isVariant'
  have down := down_of_mem_default rule isRule folder isFolder
  have down' := down_of_mem_default rule isRule folder' isFolder'
  have lengths : folder.length + variant.1.length ≠ folder'.length + variant'.1.length := by
    intro same
    obtain ⟨rfl, rfl⟩ := eq_of_lengths_default rule isRule folder isFolder folder' isFolder'
      variant isVariant variant' isVariant' same
    exact ne rfl
  have other : ¬ (folder = folder' ∧ variant.1 = variant'.1) := fun ⟨same, same'⟩ =>
    lengths (by rw [same, same'])
  refine ⟨a_isIn.label_ne b_isIn lengths, fun root =>
    ⟨a_isIn.fallback_ne b_isIn other root, fun ws => ⟨?_, fun level shared => ?_⟩⟩⟩
  · rw [Artifact.share_iff, a_isIn.placeOf_fallback_eq_iff b_isIn down down']
  · rw [Artifact.share_iff, a_isIn.placeOf_fallback_eq_iff b_isIn down down'] at shared
    refine a_isIn.placeOf_testPath_ne b_isIn ?_ ?_ other ws root shared.2
    · exact fun mem => (mem_names_or_eq names mem).elim level down.symm
    · exact fun mem => (mem_names_or_eq names mem).elim level down'.symm

end Layout

open Layout RepositoryPath

/--
The tests of a file whose name does not end with a dot have different labels and different places
for their tracefiles.  If one tracefile is found in the places of two of them, then they are one
file behind a `..` in the path of the source.  So it is for the targets that a source is resolved
to: no two of them are built under one label, and without a `..` no two of them read one tracefile
that no build has named.
-/
theorem targets_apart {path : Text}
    (undotted : ¬ ("." : Text) <:+ (RepositoryPath.path path).name) :
    (∀ a ∈ testCandidates defaultRules path, ∀ b ∈ testCandidates defaultRules path, a ≠ b →
      a.label ≠ b.label ∧ ∀ root, Artifact.fallback root a ≠ Artifact.fallback root b ∧
        ∀ ws : Workspace, (Artifact.Share ws root a b ↔
            (ws.holds (Artifact.fallback root a) = true ∧
              ws.holds (Artifact.fallback root b) = true) ∧
            ws.placeOf (root.child a.testPath) = ws.placeOf (root.child b.testPath)) ∧
          ((".." : Text) ∉ (RepositoryPath.path path).names → ¬ Artifact.Share ws root a b)) ∧
    ∀ (repo : Repository) ws source targets, repo.rules = defaultRules →
      normalize source = path → repo.resolve ws source = .ok (.targets targets) →
        targets ⊆ testCandidates defaultRules path ∧ (targets.map (·.label)).Nodup ∧
          (targets.map (Artifact.fallback repo.root)).Nodup ∧
          ((".." : Text) ∉ (RepositoryPath.path path).names →
            ∀ after, targets.Pairwise fun a b => ¬ Artifact.Share after repo.root a b) := by
  refine ⟨fun a mem b mem' => apart_of_mem_testCandidates undotted mem mem', ?_⟩
  rintro repo ws source targets rules rfl resolved
  have subset : targets ⊆ testCandidates defaultRules (normalize source) := fun target mem => by
    rw [Repository.eq_existingTargets_of_resolve resolved] at mem
    exact rules ▸ (Repository.mem_existingTargets_iff.1 mem).1
  have nodup : targets.Nodup := by
    rw [Repository.eq_existingTargets_of_resolve resolved]
    exact (nodup_testCandidates _ _).filter _
  have apart (a) (mem : a ∈ targets) (b) (mem' : b ∈ targets) (ne : a ≠ b) :=
    apart_of_mem_testCandidates undotted (subset mem) (subset mem') ne
  refine ⟨subset, nodup.map_on fun a mem b mem' => ?_, nodup.map_on fun a mem b mem' => ?_,
    fun level after => nodup.pairwise_of_forall_ne fun a mem b mem' ne => ?_⟩
  · exact not_imp_not.1 fun ne => (apart a mem b mem' ne).1
  · exact not_imp_not.1 fun ne => ((apart a mem b mem' ne).2 repo.root).1
  · exact (((apart a mem b mem' ne).2 repo.root).2 after).2 level

/-- A project with three tests of a file whose stem is a dot. -/
def Sample.dotted : Workspace :=
  ⟨.folder "main" (.file "..a" [] .empty) (.folder "test"
    (.file ".Test.a" [] (.file ".LocalTest.a" [] .empty)) (.folder "sharedTest"
      (.file ".Test.a" [] .empty) .empty)), []⟩

def Sample.dottedTests : List TestTarget :=
  [⟨"test/.Test.a", "test", .standard⟩, ⟨"test/.LocalTest.a", "test", .localTest⟩,
    ⟨"sharedTest/.Test.a", "sharedTest", .standard⟩]

open Sample in
theorem targets_apart_of_dotted :
    (¬ ("." : Text) <:+ (RepositoryPath.path "main/..a").name ∧
      repository.resolve dotted "main/..a" = .ok (.targets dottedTests)) ∧
    (dottedTests.map (·.label)).Nodup ∧
    (dottedTests.map (Artifact.fallback repository.root)).Nodup ∧
    (dottedTests.Pairwise fun a b => ¬ Artifact.Share dotted repository.root a b) ∧
    ∀ a ∈ testCandidates defaultRules "main/..a", ∀ b ∈ testCandidates defaultRules "main/..a",
      a ≠ b → a.label ≠ b.label := by
  have undotted : ¬ ("." : Text) <:+ (RepositoryPath.path "main/..a").name := by decide
  have resolved : repository.resolve dotted "main/..a" = .ok (.targets dottedTests) := by decide
  obtain ⟨candidates, run⟩ := targets_apart undotted
  obtain ⟨-, labels, places, pairwise⟩ := run repository dotted "main/..a" dottedTests rfl
    (by decide) resolved
  exact ⟨⟨undotted, resolved⟩, labels, places, pairwise (by decide) dotted,
    fun a mem b mem' ne => (candidates a mem b mem' ne).1⟩

/-- A project with one test beside its source, and a tracefile beside the logs of two folders. -/
def Sample.meeting : Workspace :=
  ⟨.folder "main" .empty (.folder "test" .empty (.folder "sharedTest" .empty
    (.folder "bazel-testlogs" (.folder "test" .empty (.folder "sharedTest" .empty
        (.folder "ATest" (.file "coverage.dat" [] .empty) .empty)))
      (.file "A.kt" [] (.file "ATest.kt" [] .empty))))), []⟩

open Sample in
/-- Behind a `..` there is one test under two paths, and one tracefile for both. -/
theorem targets_meet_behind_dots :
    ¬ ("." : Text) <:+ (RepositoryPath.path "main/../A.kt").name ∧
    ∃ a b, repository.resolve meeting "main/../A.kt" = .ok (.targets [a, b]) ∧
      a ∈ testCandidates defaultRules "main/../A.kt" ∧
      b ∈ testCandidates defaultRules "main/../A.kt" ∧ a ≠ b ∧
      Artifact.Share meeting repository.root a b ∧
      meeting.isFile (Artifact.fallback repository.root a) = true := by
  refine ⟨by decide, ⟨"test/../ATest.kt", "test", .standard⟩,
    ⟨"sharedTest/../ATest.kt", "sharedTest", .standard⟩, by decide, by decide, by decide,
    by decide, ?_, by decide⟩
  exact ⟨[], [], _, _, rfl, rfl, rfl, rfl, by decide⟩

end FileCoverage

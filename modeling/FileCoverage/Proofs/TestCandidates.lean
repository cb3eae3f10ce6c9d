import FileCoverage.Proofs.LayoutInverse
import Mathlib.Data.List.Nodup

/-!
# What the candidates for a test are

The rule for a source path is the least of those that apply to it, by the places of their folders on
the path and then by their numbers in the list of rules.  The candidates are all tests that this
rule names, folder by folder, without those that have the path of an earlier one.  This holds of all
lists of rules: also if rules share folders, are there twice, or name folders that are written with
slashes, so that several of them lead to one place.
-/

namespace FileCoverage.Layout

open FileCoverage.Path RepositoryPath

variable {rules : List LayoutRule} {rule rule' last : LayoutRule} {pieces folders : List Text}
  {folder path : Text} {k k' place place' : Nat}

/-! ### The rule that is chosen -/

/-- The first place of a folder among those of a path. -/
def IsFirstPlace (folders : List Text) (folder : Text) (place : Nat) : Prop :=
  folders[place]? = some folder ∧ ∀ earlier < place, folders[earlier]? ≠ some folder

/-- The rule with the number `k` applies to a path that has its folder first at a place. -/
def AppliesAt (rules : List LayoutRule) (folders : List Text) (k place : Nat)
    (rule : LayoutRule) : Prop :=
  rules[k]? = some rule ∧ IsFirstPlace folders rule.sourceFolder place

/-- Of the rules that apply, the one with the least place, and of these the one with the least
number. -/
structure IsChosen (rules : List LayoutRule) (folders : List Text) (k place : Nat)
    (rule : LayoutRule) : Prop where
  applies : AppliesAt rules folders k place rule
  least : ∀ k' place' rule', AppliesAt rules folders k' place' rule' →
    place < place' ∨ place = place' ∧ k ≤ k'

/-- There is one choice only. -/
theorem IsChosen.unique (chosen : IsChosen rules folders k place rule)
    (chosen' : IsChosen rules folders k' place' rule') :
    k' = k ∧ place' = place ∧ rule' = rule := by
  have least := chosen.least k' place' rule' chosen'.applies
  have least' := chosen'.least k place rule chosen.applies
  obtain rfl : k' = k := by omega
  have same : some rule' = some rule := chosen'.applies.1.symm.trans chosen.applies.1
  exact ⟨rfl, by omega, Option.some.inj same⟩

theorem isFirstPlace_iff :
    IsFirstPlace pieces.dropLast folder place ↔ folderIndex? pieces folder = some place := by
  rw [folderIndex?, List.idxOf?_eq_some_iff]
  constructor
  · rintro ⟨here, first⟩
    obtain ⟨lt, here⟩ := List.getElem?_eq_some_iff.1 here
    refine ⟨lt, here, fun earlier before eq => first earlier before ?_⟩
    exact List.getElem?_eq_some_iff.2 ⟨Nat.lt_trans before lt, eq⟩
  · rintro ⟨lt, here, first⟩
    refine ⟨List.getElem?_eq_some_iff.2 ⟨lt, here⟩, fun earlier before eq => ?_⟩
    obtain ⟨_, eq⟩ := List.getElem?_eq_some_iff.1 eq
    exact first earlier before eq

/-- A folder has a first place if it is there. -/
theorem exists_isFirstPlace_iff : (∃ place, IsFirstPlace pieces.dropLast folder place) ↔
    folder ∈ pieces.dropLast := by
  simp only [isFirstPlace_iff]
  rw [← Option.isSome_iff_exists, Option.isSome_iff_ne_none, ne_eq, folderIndex?_eq_none_iff,
    not_not]

theorem getElem?_append_singleton_eq_some_iff {α : Type} {as : List α} {a b : α} :
    (as ++ [a])[k]? = some b ↔ as[k]? = some b ∨ k = as.length ∧ a = b := by
  rcases Nat.lt_trichotomy k as.length with lt | rfl | gt
  · rw [List.getElem?_append_left lt]
    simp [Nat.ne_of_lt lt]
  · simp
  · rw [List.getElem?_eq_none (by rw [List.length_append, List.length_singleton]; omega),
      List.getElem?_eq_none (Nat.le_of_lt gt)]
    simp [Nat.ne_of_gt gt]

theorem appliesAt_append_singleton_iff : AppliesAt (rules ++ [last]) folders k place rule ↔
    AppliesAt rules folders k place rule ∨
      (k = rules.length ∧ last = rule) ∧ IsFirstPlace folders rule.sourceFolder place := by
  rw [AppliesAt, AppliesAt, getElem?_append_singleton_eq_some_iff, or_and_right]

/-- One more rule changes nothing if it is not nearer. -/
theorem IsChosen.append_singleton (chosen : IsChosen rules folders k place rule)
    (le : ∀ i, IsFirstPlace folders last.sourceFolder i → place ≤ i) :
    IsChosen (rules ++ [last]) folders k place rule := by
  have lt : k < rules.length := (List.getElem?_eq_some_iff.1 chosen.applies.1).1
  refine ⟨appliesAt_append_singleton_iff.2 (.inl chosen.applies), fun k' place' rule' applies => ?_⟩
  rcases appliesAt_append_singleton_iff.1 applies with applies | ⟨⟨rfl, rfl⟩, there⟩
  · exact chosen.least k' place' rule' applies
  · have le := le place' there
    omega

/-- One more rule is chosen if it is nearer than all before. -/
theorem isChosen_append_singleton (here : IsFirstPlace folders last.sourceFolder place)
    (lt : ∀ k' place' rule', AppliesAt rules folders k' place' rule' → place < place') :
    IsChosen (rules ++ [last]) folders rules.length place last := by
  refine ⟨appliesAt_append_singleton_iff.2 (.inr ⟨⟨rfl, rfl⟩, here⟩),
    fun k' place' rule' applies => ?_⟩
  rcases appliesAt_append_singleton_iff.1 applies with applies | ⟨⟨rfl, rfl⟩, there⟩
  · exact .inl (lt k' place' rule' applies)
  · rcases Nat.lt_or_ge place place' with before | after
    · exact .inl before
    · refine .inr ⟨Nat.le_antisymm (Nat.le_of_not_lt fun behind => ?_) after, Nat.le_refl _⟩
      exact here.2 place' behind there.1

theorem sourceRule?_append_singleton (rules : List LayoutRule) (last : LayoutRule)
    (pieces : List Text) :
    sourceRule? (rules ++ [last]) pieces =
      nearer (sourceRule? rules pieces)
        ((folderIndex? pieces last.sourceFolder).map fun i => (last, i)) := by
  rw [sourceRule?, List.map_append, List.map_singleton, nearest_append_singleton]
  rfl

theorem sourceRule?_eq_none_iff : sourceRule? rules pieces = none ↔
    ∀ rule ∈ rules, rule.sourceFolder ∉ pieces.dropLast := by
  rw [sourceRule?, nearest_eq_none_iff, List.forall_mem_map]
  simp only [folderIndex?_eq_none_iff]

/-- The nearer of the rule that is chosen and one more rule is chosen from all of them. -/
theorem IsChosen.exists_nearer {best : LayoutRule}
    (chosen : IsChosen rules pieces.dropLast k place' best)
    (found : nearer (some (best, place'))
      ((folderIndex? pieces last.sourceFolder).map fun i => (last, i)) = some (rule, place)) :
    ∃ k, IsChosen (rules ++ [last]) pieces.dropLast k place rule := by
  cases here : folderIndex? pieces last.sourceFolder with
  | none =>
      rw [here] at found
      cases found
      refine ⟨k, chosen.append_singleton fun i there => ?_⟩
      rw [isFirstPlace_iff.1 there] at here
      cases here
  | some i =>
      rw [here, Option.map_some, nearer] at found
      split at found
      next lt =>
        cases found
        refine ⟨rules.length, isChosen_append_singleton (isFirstPlace_iff.2 here) ?_⟩
        intro k' i' other applies
        have le := chosen.least k' i' other applies
        omega
      next ge =>
        cases found
        refine ⟨k, chosen.append_singleton fun i' there => ?_⟩
        rw [isFirstPlace_iff.1 there] at here
        cases here
        exact Nat.le_of_not_lt ge

/-- The rule that is found is the one that is chosen. -/
theorem exists_isChosen_of_sourceRule? (found : sourceRule? rules pieces = some (rule, place)) :
    ∃ k, IsChosen rules pieces.dropLast k place rule := by
  induction rules using List.reverseRecOn generalizing rule place with
  | nil => cases found
  | append_singleton rules last ih =>
      rw [sourceRule?_append_singleton] at found
      cases best : sourceRule? rules pieces with
      | none =>
          rw [best, nearer] at found
          obtain ⟨i, here, eq⟩ := Option.map_eq_some_iff.1 found
          obtain ⟨rfl, rfl⟩ := Prod.mk.inj eq
          refine ⟨rules.length, isChosen_append_singleton (isFirstPlace_iff.2 here) ?_⟩
          intro k' place' rule' applies
          have isFolder := exists_isFirstPlace_iff.1 ⟨place', applies.2⟩
          have mem := List.mem_of_getElem? applies.1
          exact absurd isFolder (sourceRule?_eq_none_iff.1 best rule' mem)
      | some other =>
          obtain ⟨k, chosen⟩ := ih best
          rw [best] at found
          exact chosen.exists_nearer found

theorem IsChosen.sourceRule?_eq (chosen : IsChosen rules pieces.dropLast k place rule) :
    sourceRule? rules pieces = some (rule, place) := by
  cases found : sourceRule? rules pieces with
  | none =>
      have mem : rule ∈ rules := List.mem_of_getElem? chosen.applies.1
      have isFolder := exists_isFirstPlace_iff.1 ⟨place, chosen.applies.2⟩
      exact absurd isFolder (sourceRule?_eq_none_iff.1 found rule mem)
  | some other =>
      obtain ⟨rule', place'⟩ := other
      obtain ⟨k', chosen'⟩ := exists_isChosen_of_sourceRule? found
      obtain ⟨_, rfl, rfl⟩ := chosen.unique chosen'
      rfl

/-! ### Each test path once -/

/-- The targets whose test path no earlier one has. -/
def firsts (targets : List TestTarget) : List TestTarget :=
  (targets.zipIdx.filter fun (target, i) =>
    !(targets.take i).any (·.testPath = target.testPath)).map (·.1)

theorem firsts_append_singleton (targets : List TestTarget) (target : TestTarget) :
    firsts (targets ++ [target]) =
      if targets.any (·.testPath = target.testPath) then firsts targets
      else firsts targets ++ [target] := by
  have before : ∀ entry ∈ targets.zipIdx,
      (!((targets ++ [target]).take entry.2).any (·.testPath = entry.1.testPath)) =
        !(targets.take entry.2).any (·.testPath = entry.1.testPath) := by
    intro entry mem
    rw [List.take_append_of_le_length (Nat.le_of_lt (List.snd_lt_of_mem_zipIdx mem))]
  rw [firsts, List.zipIdx_append, List.filter_append, List.map_append,
    List.filter_congr before, Nat.zero_add]
  simp only [List.zipIdx_singleton, List.filter_cons, List.filter_nil, List.take_left]
  cases targets.any (·.testPath = target.testPath) with
  | false => rfl
  | true => exact List.append_nil _

theorem any_eq_decide (targets : List TestTarget) (path : Text) :
    targets.any (·.testPath = path) = decide (path ∈ targets.map (·.testPath)) := by
  rw [Bool.eq_iff_iff]
  simp

theorem any_distinct (targets : List TestTarget) (path : Text) :
    (distinct targets).any (·.testPath = path) = targets.any (·.testPath = path) := by
  simp only [any_eq_decide, mem_map_distinct_iff]

theorem distinct_eq_firsts (targets : List TestTarget) : distinct targets = firsts targets := by
  induction targets using List.reverseRecOn with
  | nil => rfl
  | append_singleton targets target ih =>
      rw [distinct_append_singleton, firsts_append_singleton, any_distinct, ih]

theorem nodup_map_distinct (targets : List TestTarget) :
    ((distinct targets).map (·.testPath)).Nodup := by
  induction targets using List.reverseRecOn with
  | nil => exact List.nodup_nil
  | append_singleton targets target ih =>
      rw [distinct_append_singleton, any_eq_decide]
      split
      next => exact ih
      next new =>
        rw [List.map_append, List.map_singleton, List.nodup_append]
        refine ⟨ih, List.nodup_singleton _, fun known mem other mem' same => ?_⟩
        obtain rfl := List.mem_singleton.1 mem'
        exact new (decide_eq_true (same ▸ mem))

theorem distinct_eq_nil_iff {targets : List TestTarget} : distinct targets = [] ↔ targets = [] := by
  constructor
  · intro nothing
    cases targets with
    | nil => rfl
    | cons target targets =>
        have mem : target.testPath ∈ (distinct (target :: targets)).map (·.testPath) :=
          (mem_map_distinct_iff _).2 List.mem_cons_self
        rw [nothing] at mem
        cases mem
  · rintro rfl
    rfl

/-! ### The candidates -/

/-- The folders on a path, which are all its pieces but the name of the file. -/
def foldersOf (path : Text) : List Text := (RepositoryPath.path path).pieces.dropLast

/-- The tests of a file with another folder in some place: the test, and the local test. -/
def testsIn (path : Text) (place : Nat) (folder : Text) : List TestTarget :=
  let folders := (foldersOf path).set place folder
  let p := RepositoryPath.path path
  [⟨fileIn folders (p.stem ++ "Test" ++ p.suffix), folder, .standard⟩,
    ⟨fileIn folders (p.stem ++ "LocalTest" ++ p.suffix), folder, .localTest⟩]

theorem exchange_eq_set (here : folderIndex? pieces folder = some place) (other : Text) :
    exchange pieces place other = pieces.dropLast.set place other := by
  obtain ⟨before, inside, name, rfl, rfl, _⟩ := folderIndex?_eq_some_iff.1 here
  rw [exchange_route, dropLast_route, List.set_append_right _ _ (Nat.le_refl _), Nat.sub_self,
    List.set_cons_zero]

/-- The candidates are the tests in the folders of the rule that is chosen, each path once. -/
theorem IsChosen.testCandidates_eq (chosen : IsChosen rules (foldersOf path) k place rule) :
    testCandidates rules path = distinct (rule.testFolders.flatMap (testsIn path place)) := by
  have here := isFirstPlace_iff.1 chosen.applies.2
  rw [testCandidates]
  simp only [chosen.sourceRule?_eq, candidatesAt, exchange_eq_set here]
  rfl

theorem flatMap_testsIn_eq_nil_iff :
    rule.testFolders.flatMap (testsIn path place) = [] ↔ rule.testFolders = [] := by
  rw [List.flatMap_eq_nil_iff, List.eq_nil_iff_forall_not_mem]
  exact forall₂_congr fun folder mem => iff_of_false (List.cons_ne_nil _ _) not_false

/-- There is a choice if some rule has its folder on the path. -/
theorem exists_isChosen (mem : rule ∈ rules) (isFolder : rule.sourceFolder ∈ foldersOf path) :
    ∃ k place rule, IsChosen rules (foldersOf path) k place rule := by
  cases found : sourceRule? rules (RepositoryPath.path path).pieces with
  | none => exact absurd isFolder (sourceRule?_eq_none_iff.1 found rule mem)
  | some chosen =>
      obtain ⟨k, isChosen⟩ := exists_isChosen_of_sourceRule? found
      exact ⟨k, chosen.2, chosen.1, isChosen⟩

theorem testCandidates_eq_nil_iff : testCandidates rules path = [] ↔
    (∀ rule ∈ rules, rule.sourceFolder ∉ foldersOf path) ∨
      ∃ k place rule, IsChosen rules (foldersOf path) k place rule ∧ rule.testFolders = [] := by
  by_cases applies : ∃ rule ∈ rules, rule.sourceFolder ∈ foldersOf path
  · obtain ⟨rule, mem, isFolder⟩ := applies
    obtain ⟨k, place, chosen, isChosen⟩ := exists_isChosen mem isFolder
    rw [isChosen.testCandidates_eq, distinct_eq_nil_iff, flatMap_testsIn_eq_nil_iff]
    constructor
    · intro nothing
      exact .inr ⟨k, place, chosen, isChosen, nothing⟩
    · rintro (none | ⟨k', place', rule', isChosen', nothing⟩)
      · exact absurd isFolder (none rule mem)
      · obtain ⟨_, _, rfl⟩ := isChosen.unique isChosen'
        exact nothing
  · have none : ∀ rule ∈ rules, rule.sourceFolder ∉ foldersOf path := fun rule mem isFolder =>
      applies ⟨rule, mem, isFolder⟩
    rw [testCandidates, sourceRule?_eq_none_iff.2 none]
    exact iff_of_true rfl (.inl none)

/--
A path has no candidates exactly if no rule has its folder on it or the rule that is chosen has no
folders of tests.  Otherwise they are the tests of that rule, folder by folder, of those with one
path the first: no path is there twice, and the path of every test is there.
-/
theorem testCandidates_by_chosen_rule (rules : List LayoutRule) (path : Text) :
    (testCandidates rules path = [] ↔
      (∀ rule ∈ rules, rule.sourceFolder ∉ foldersOf path) ∨
        ∃ k place rule, IsChosen rules (foldersOf path) k place rule ∧ rule.testFolders = []) ∧
    ((∃ rule ∈ rules, rule.sourceFolder ∈ foldersOf path) →
      ∃ k place rule, IsChosen rules (foldersOf path) k place rule ∧
        ∀ k' place' rule', IsChosen rules (foldersOf path) k' place' rule' →
          k' = k ∧ place' = place ∧ rule' = rule) ∧
    (∀ k place rule, IsChosen rules (foldersOf path) k place rule →
      testCandidates rules path = firsts (rule.testFolders.flatMap (testsIn path place)) ∧
      ∀ folder ∈ rule.testFolders, ∀ test ∈ testsIn path place folder,
        test.testPath ∈ (testCandidates rules path).map (·.testPath)) ∧
    ((testCandidates rules path).map (·.testPath)).Nodup := by
  refine ⟨testCandidates_eq_nil_iff, fun ⟨rule, mem, isFolder⟩ => ?_,
    fun k place rule chosen => ?_, ?_⟩
  · obtain ⟨k, place, rule, chosen⟩ := exists_isChosen mem isFolder
    exact ⟨k, place, rule, chosen, fun k' place' rule' chosen' => chosen.unique chosen'⟩
  · rw [chosen.testCandidates_eq]
    refine ⟨distinct_eq_firsts _, fun folder mem test isTest => ?_⟩
    rw [mem_map_distinct_iff]
    exact List.mem_map_of_mem (List.mem_flatMap_of_mem mem isTest)
  · cases found : sourceRule? rules (RepositoryPath.path path).pieces with
    | none =>
        rw [testCandidates, found]
        exact List.nodup_nil
    | some chosen =>
        obtain ⟨k, isChosen⟩ := exists_isChosen_of_sourceRule? found
        rw [IsChosen.testCandidates_eq isChosen]
        exact nodup_map_distinct _

/-- Rules that share a folder, with folders of tests that lead to one place and to the root. -/
def crossingRules : List LayoutRule :=
  [⟨"java", ["javatests"]⟩, ⟨"main", ["test", "./test/", "", "/srv"]⟩, ⟨"main", []⟩]

/-- The second rule is chosen: its folder is nearer than that of the first, and as near as that of
the third.  Two of its tests have the paths of others. -/
theorem testCandidates_by_crossingRules :
    IsChosen crossingRules (foldersOf "app/src/main/java/Cart.kt") 1 2
      ⟨"main", ["test", "./test/", "", "/srv"]⟩ ∧
    testCandidates crossingRules "app/src/main/java/Cart.kt" =
      [⟨"app/src/test/java/CartTest.kt", "test", .standard⟩,
        ⟨"app/src/test/java/CartLocalTest.kt", "test", .localTest⟩,
        ⟨"app/src/java/CartTest.kt", "", .standard⟩,
        ⟨"app/src/java/CartLocalTest.kt", "", .localTest⟩,
        ⟨"/srv/java/CartTest.kt", "/srv", .standard⟩,
        ⟨"/srv/java/CartLocalTest.kt", "/srv", .localTest⟩] := by
  have found : sourceRule? crossingRules
        (RepositoryPath.path "app/src/main/java/Cart.kt").pieces =
      some (⟨"main", ["test", "./test/", "", "/srv"]⟩, 2) := by
    decide
  obtain ⟨k, chosen⟩ := exists_isChosen_of_sourceRule? found
  have second : k = 1 := by
    have isRule := chosen.applies.1
    rcases k with _ | _ | _ | k
    · cases isRule
    · rfl
    · cases isRule
    · cases isRule
  subst second
  obtain ⟨-, -, list, -⟩ := testCandidates_by_chosen_rule crossingRules "app/src/main/java/Cart.kt"
  refine ⟨chosen, (list 1 2 _ chosen).1.trans ?_⟩
  decide

end FileCoverage.Layout

import FileCoverage.Layout.Convention
import FileCoverage.Proofs.CanonicalPath

/-!
# The names of tests

The test of a file has the name of the file with an ending after the stem.  The name can be read
back from that of the test unless the stem ends with `Local`, so that one ending seems to be the
other, or the name ends with a dot, so that the ending becomes the suffix of the test.
-/

namespace FileCoverage

/-! ### Stems and suffixes -/

namespace Text

theorem cutAtLast?_of_notMem {c : Char} {t : Text} (clear : c ∉ t) : cutAtLast? c t = none := by
  induction t with
  | nil => rfl
  | cons d t ih =>
      obtain ⟨ne, clear⟩ := not_or.1 (mt List.mem_cons.2 clear)
      rw [cutAtLast?, ih clear]
      exact if_neg (Ne.symm ne)

theorem cutAtLast?_append {c : Char} {after : Text} (clear : c ∉ after) (before : Text) :
    cutAtLast? c (before ++ c :: after) = some (before, after) := by
  induction before with
  | nil =>
      rw [List.nil_append, cutAtLast?, cutAtLast?_of_notMem clear]
      exact if_pos rfl
  | cons d before ih => rw [List.cons_append, cutAtLast?, ih]

end Text

namespace Path

theorem cutSuffix_append_dot {base more : Text} (ne : base ≠ []) (ne' : more ≠ [])
    (clear : '.' ∉ more) : cutSuffix (base ++ '.' :: more) = (base, '.' :: more) := by
  rw [cutSuffix, Text.cutAtLast?_append clear]
  exact if_neg (not_or.2 ⟨ne, ne'⟩)

/-- A dot counts only behind the first character. -/
theorem cutSuffix_of_notMem_tail {name : Text} (clear : '.' ∉ name.tail) :
    cutSuffix name = (name, []) := by
  cases name with
  | nil => rfl
  | cons c rest =>
      rw [List.tail_cons] at clear
      by_cases dot : c = '.'
      · subst dot
        rw [cutSuffix, ← List.nil_append ('.' :: rest), Text.cutAtLast?_append clear]
        exact if_pos (.inl rfl)
      · rw [cutSuffix, Text.cutAtLast?_of_notMem (by simp [clear, Ne.symm dot])]

/-- A name has a suffix after a dot inside, or none. -/
theorem cutSuffix_cases (name : Text) :
    (∃ base more, name = base ++ '.' :: more ∧ base ≠ [] ∧ more ≠ [] ∧ '.' ∉ more ∧
      cutSuffix name = (base, '.' :: more)) ∨
    (['.'] <:+ name ∨ '.' ∉ name.tail) ∧ cutSuffix name = (name, []) := by
  cases found : Text.cutAtLast? '.' name with
  | none =>
      have clear := Text.cutAtLast?_eq_none found
      exact .inr ⟨.inr fun mem => clear (List.mem_of_mem_tail mem), by rw [cutSuffix, found]⟩
  | some cut =>
      obtain ⟨base, more⟩ := cut
      obtain ⟨rfl, clear⟩ := Text.cutAtLast?_eq_some found
      by_cases ne : base = []
      · subst ne
        exact .inr ⟨.inr clear, cutSuffix_of_notMem_tail clear⟩
      · by_cases ne' : more = []
        · subst ne'
          exact .inr ⟨.inl (List.suffix_append _ _), by rw [cutSuffix, found]; simp⟩
        · exact .inl ⟨base, more, rfl, ne, ne', clear, cutSuffix_append_dot ne ne' clear⟩

theorem cutSuffix_fst_ne_nil {name : Text} (ne : name ≠ []) : (cutSuffix name).1 ≠ [] := by
  rcases cutSuffix_cases name with ⟨base, more, rfl, ne, _, _, eq⟩ | ⟨_, eq⟩
  · rw [eq]
    exact ne
  · rw [eq]
    exact ne

end Path

/-! ### Endings -/

namespace Layout

open FileCoverage.Path

variable {ending stem base name source : Text}

theorem beforeEnding?_eq_some_iff {t before : Text} :
    beforeEnding? ending t = some before ↔ t = before ++ ending := by
  rw [beforeEnding?]
  constructor
  · intro found
    split at found
    · next ends =>
        obtain ⟨start, rfl⟩ := List.isSuffixOf_iff_suffix.1 ends
        obtain rfl := Option.some.inj found
        simp
    · cases found
  · rintro rfl
    rw [if_pos (List.isSuffixOf_iff_suffix.2 (List.suffix_append before ending))]
    simp

theorem beforeEnding?_eq_none_iff {t : Text} : beforeEnding? ending t = none ↔ ¬ ending <:+ t := by
  rw [beforeEnding?, ← List.isSuffixOf_iff_suffix]
  split
  · simp_all
  · simp_all

theorem testedStem?_eq_some_iff : testedStem? stem = some base ↔ base ≠ [] ∧
    (stem = base ++ localTestSuffix ∨
      ¬ localTestSuffix <:+ stem ∧ stem = base ++ testSuffix) := by
  rw [← beforeEnding?_eq_some_iff, ← beforeEnding?_eq_some_iff, ← beforeEnding?_eq_none_iff,
    ← Option.or_eq_some_iff, testedStem?]
  split
  · next empty => simp [empty]
  · next ne =>
      refine ⟨fun found => ⟨?_, found⟩, fun found => found.2⟩
      rintro rfl
      exact ne found

/-- The endings of the stems of tests. -/
def endings : List Text := variants.map (·.1)

/-- What the ending of a local test has before the other ending. -/
def localMark : Text := "Local"

theorem localTestSuffix_eq : localTestSuffix = localMark ++ testSuffix := rfl

/-- The name of the test of a file. -/
def testName (ending name : Text) : Text := (cutSuffix name).1 ++ ending ++ (cutSuffix name).2

/-- The name of the file that a test is for. -/
def testedName? (name : Text) : Option Text :=
  (testedStem? (cutSuffix name).1).map (· ++ (cutSuffix name).2)

/-- An ending leads back to the stem unless it is taken for the end of the longer one. -/
theorem forall_testedStem?_iff (ne : stem ≠ []) :
    (∀ ending ∈ endings, testedStem? (stem ++ ending) = some stem) ↔ ¬ localMark <:+ stem := by
  have standard : testedStem? (stem ++ testSuffix) = some stem ↔ ¬ localMark <:+ stem := by
    rw [testedStem?_eq_some_iff, and_iff_right ne, List.append_cancel_left_eq, localTestSuffix_eq,
      List.suffix_append_self_iff, and_iff_left rfl, or_iff_right (by decide)]
  have longer : testedStem? (stem ++ localTestSuffix) = some stem :=
    testedStem?_eq_some_iff.2 ⟨ne, .inl rfl⟩
  constructor
  · exact fun all => standard.1 (all testSuffix (by decide))
  · intro unmarked ending mem
    rcases List.mem_cons.1 mem with rfl | mem
    · exact standard.2 unmarked
    · obtain rfl := List.mem_singleton.1 mem
      exact longer

theorem ne_nil_of_mem_endings (mem : ending ∈ endings) : ending ≠ [] := by
  revert ending
  decide

theorem dot_notMem_of_mem_endings (mem : ending ∈ endings) : '.' ∉ ending := by
  revert ending
  decide

/-- The ending becomes part of the stem unless the name ends with a dot. -/
theorem cutSuffix_testName (mem : ending ∈ endings) (undotted : ¬ ['.'] <:+ name) :
    cutSuffix (testName ending name) = ((cutSuffix name).1 ++ ending, (cutSuffix name).2) := by
  have clear := dot_notMem_of_mem_endings mem
  rcases cutSuffix_cases name with ⟨base, more, rfl, ne, ne', clear', eq⟩ | ⟨tail, eq⟩
  · rw [testName, eq]
    exact cutSuffix_append_dot (List.append_ne_nil_of_left_ne_nil ne _) ne' clear'
  · rw [testName, eq, List.append_nil]
    apply cutSuffix_of_notMem_tail
    have tail := tail.resolve_left undotted
    cases name with
    | nil => exact fun here => clear (List.mem_of_mem_tail here)
    | cons c rest =>
        rw [List.cons_append, List.tail_cons, List.mem_append]
        exact not_or.2 ⟨tail, clear⟩

theorem not_final_dot {more : Text} (ne : more ≠ []) (clear : '.' ∉ more) (base : Text) :
    ¬ ['.'] <:+ base ++ '.' :: more := by
  intro dotted
  have last : more <:+ base ++ '.' :: more := ⟨base ++ ['.'], by simp⟩
  have within := List.suffix_of_suffix_length_le dotted last (List.length_pos_iff.2 ne)
  exact clear (within.subset (List.mem_singleton_self '.'))

theorem cutSuffix_of_final_dot (dotted : ['.'] <:+ name) : cutSuffix name = (name, []) := by
  rcases cutSuffix_cases name with ⟨base, more, rfl, _, ne, clear, _⟩ | ⟨_, eq⟩
  · exact absurd dotted (not_final_dot ne clear base)
  · exact eq

/-- The ending becomes the suffix of the test if the name ends with a dot. -/
theorem testedName?_of_final_dot (mem : ending ∈ endings) (dotted : ['.'] <:+ name)
    (ne : name ≠ ".") : testedName? (testName ending name) ≠ some name := by
  intro back
  have clear := dot_notMem_of_mem_endings mem
  obtain ⟨before, rfl⟩ := id dotted
  have cut : cutSuffix (before ++ '.' :: ending) = (before, '.' :: ending) := by
    refine cutSuffix_append_dot ?_ (ne_nil_of_mem_endings mem) clear
    rintro rfl
    exact ne rfl
  rw [testName, cutSuffix_of_final_dot dotted, List.append_nil, List.append_assoc,
    List.singleton_append, testedName?, cut] at back
  obtain ⟨base, _, eq⟩ := Option.map_eq_some_iff.1 back
  exact not_final_dot (ne_nil_of_mem_endings mem) clear base ⟨before, eq.symm⟩

/-- The name of a file can be read back from the names of its tests. -/
theorem forall_testedName?_iff (ne : name ≠ []) (ne' : name ≠ ".") :
    (∀ ending ∈ endings, testedName? (testName ending name) = some name) ↔
      ¬ localMark <:+ (cutSuffix name).1 ∧ ¬ ['.'] <:+ name := by
  by_cases dotted : ['.'] <:+ name
  · refine iff_of_false (fun all => ?_) fun both => both.2 dotted
    exact testedName?_of_final_dot (by decide) dotted ne' (all testSuffix (by decide))
  · rw [and_iff_left dotted, ← forall_testedStem?_iff (cutSuffix_fst_ne_nil ne)]
    refine forall₂_congr fun ending mem => ?_
    rw [testedName?, cutSuffix_testName mem dotted, Option.map_eq_some_iff]
    constructor
    · rintro ⟨base, back, eq⟩
      obtain rfl := List.append_cancel_right (eq.trans (cutSuffix_append name).symm)
      exact back
    · exact fun back => ⟨_, back, cutSuffix_append name⟩

/-- A test with a suffix is a test of the file that it is for. -/
theorem exists_testName_eq (suffixed : (cutSuffix name).2 ≠ [])
    (back : testedName? name = some source) :
    ∃ ending ∈ endings, name = testName ending source := by
  rcases cutSuffix_cases name with ⟨stem, more, rfl, _, ne, clear, eq⟩ | ⟨_, eq⟩
  · rw [testedName?, eq, Option.map_eq_some_iff] at back
    obtain ⟨base, back, rfl⟩ := back
    obtain ⟨ne', either⟩ := testedStem?_eq_some_iff.1 back
    have cut := cutSuffix_append_dot ne' ne clear
    rcases either with rfl | ⟨_, rfl⟩
    · exact ⟨localTestSuffix, by decide, by rw [testName, cut]⟩
    · exact ⟨testSuffix, by decide, by rw [testName, cut]⟩
  · exact absurd (congrArg Prod.snd eq) suffixed

/-! ### The names of files in canonical paths -/

theorem mem_of_mem_testedName? (back : testedName? name = some source) {c : Char}
    (mem : c ∈ source) : c ∈ name := by
  obtain ⟨base, found, rfl⟩ := Option.map_eq_some_iff.1 back
  rw [← cutSuffix_append name]
  obtain ⟨_, either⟩ := testedStem?_eq_some_iff.1 found
  rcases List.mem_append.1 mem with inBase | inSuffix
  · refine List.mem_append_left _ ?_
    rcases either with eq | ⟨_, eq⟩
    · exact eq.symm ▸ List.mem_append_left _ inBase
    · exact eq.symm ▸ List.mem_append_left _ inBase
  · exact List.mem_append_right _ inSuffix

theorem mem_testName_iff {c : Char} : c ∈ testName ending name ↔ c ∈ name ∨ c ∈ ending := by
  conv_rhs => rw [← cutSuffix_append name]
  rw [testName, List.mem_append, List.mem_append, List.mem_append]
  tauto

theorem isFileName_testName (plain : IsFileName name) (mem : ending ∈ endings) :
    IsFileName (testName ending name) := by
  have marked : 't' ∈ ending ∧ '/' ∉ ending ∧ '\\' ∉ ending := by
    revert ending
    decide
  have mark : 't' ∈ testName ending name := mem_testName_iff.2 (.inr marked.1)
  refine ⟨(isName_iff _).2 ⟨?_, ?_⟩, ?_, ?_⟩
  · exact List.ne_nil_of_mem mark
  · intro dot
    rw [dot] at mark
    exact absurd mark (by decide)
  · exact fun here => (mem_testName_iff.1 here).elim plain.slash marked.2.1
  · exact fun here => (mem_testName_iff.1 here).elim plain.backslash marked.2.2

theorem isFileName_source (plain : IsFileName name) (suffixed : (cutSuffix name).2 ≠ [])
    (back : testedName? name = some source) : IsFileName source := by
  have clear (c : Char) (notMem : c ∉ name) : c ∉ source :=
    fun here => notMem (mem_of_mem_testedName? back here)
  refine ⟨(isName_iff source).2 ?_, clear _ plain.slash, clear _ plain.backslash⟩
  obtain ⟨base, found, rfl⟩ := Option.map_eq_some_iff.1 back
  have ne := List.length_pos_iff.2 (testedStem?_eq_some_iff.1 found).1
  have ne' := List.length_pos_iff.2 suffixed
  refine ⟨List.append_ne_nil_of_right_ne_nil _ suffixed, fun dot => ?_⟩
  have one := congrArg List.length dot
  rw [List.length_append] at one
  change _ = 1 at one
  omega

theorem solid_testName (solid : ∀ c ∈ name.getLast?, Text.isBlank c = false)
    (mem : ending ∈ endings) : ∀ c ∈ (testName ending name).getLast?, Text.isBlank c = false := by
  rw [← cutSuffix_append name, List.getLast?_append] at solid
  rw [testName, List.getLast?_append]
  cases last : (cutSuffix name).2.getLast? with
  | none =>
      rw [Option.none_or, List.getLast?_append_of_ne_nil _ (ne_nil_of_mem_endings mem)]
      have solid : ending.getLast?.any Text.isBlank = false := by
        revert ending
        decide
      exact (Option.any_eq_false _ _).1 solid
  | some c =>
      rw [last] at solid
      exact solid

theorem solid_source (solid : ∀ c ∈ name.getLast?, Text.isBlank c = false)
    (suffixed : (cutSuffix name).2 ≠ []) (back : testedName? name = some source) :
    ∀ c ∈ source.getLast?, Text.isBlank c = false := by
  obtain ⟨base, _, rfl⟩ := Option.map_eq_some_iff.1 back
  rw [← cutSuffix_append name, List.getLast?_append_of_ne_nil _ suffixed] at solid
  rwa [List.getLast?_append_of_ne_nil _ suffixed]

end Layout

end FileCoverage

import FileCoverage.Build.Artifact
import FileCoverage.Proofs.PathEnding
import FileCoverage.Proofs.TestName
import Mathlib.Data.Char
import Mathlib.Data.List.Basic

/-!
# The tracefile that a build names

The words of a text are those of its lines, one line after the other, since every line break is a
blank.  So the tracefile that the output of a build names is the last of all its words that end like
the name of one, and which blanks stand between the words does not matter, line breaks or others.

An output without such a word leaves the place `bazel-testlogs/<folders>/<stem>/coverage.dat` below
the repository root, for a test path of these folders and a file of this stem.  As everywhere, an
anchored path starts again, and an empty name or a dot is none.
-/

namespace FileCoverage

/-! ### Words and lines -/

namespace Text

variable {c : Char} {s t : Text}

theorem isBlank_of_isRecordBreak (isBreak : isRecordBreak c = true) : isBlank c = true := by
  simp only [isRecordBreak, Bool.or_eq_true, Bool.and_eq_true, decide_eq_true_eq] at isBreak
  simp only [isBlank, isNumberBlank, isSeparator, Bool.or_eq_true, Bool.and_eq_true,
    decide_eq_true_eq]
  rcases isBreak with (((⟨low, high⟩ | ⟨low, high⟩) | next) | line) | paragraph
  · have low : '\t' ≤ c := le_trans (by decide) low
    tauto
  · have high : c ≤ '\x1f' := le_trans high (by decide)
    tauto
  all_goals tauto

theorem wordsFrom_cons_of_blank (blank : isBlank c = true) (t : Text) :
    wordsFrom (c :: t) = ([], words t) := by
  simp only [wordsFrom, blank, if_true, words]

theorem wordsFrom_cons_of_solid (solid : isBlank c = false) (t : Text) :
    wordsFrom (c :: t) = (c :: (wordsFrom t).1, (wordsFrom t).2) := by
  simp only [wordsFrom, solid, Bool.false_eq_true, if_false]

theorem words_cons_of_blank (blank : isBlank c = true) (t : Text) :
    words (c :: t) = words t := by
  rw [words, wordsFrom_cons_of_blank blank]
  rfl

/-- A text with the word of another one at its start has the words of the other one first. -/
theorem words_eq_append {more : List Text}
    (same : wordsFrom t = ((wordsFrom s).1, (wordsFrom s).2 ++ more)) :
    words t = words s ++ more := by
  simp only [words, same]
  split <;> rfl

/-- No word goes on across a blank. -/
theorem words_append_of_blank (blank : isBlank c = true) (s t : Text) :
    words (s ++ c :: t) = words s ++ words t := by
  apply words_eq_append
  induction s with
  | nil => exact wordsFrom_cons_of_blank blank t
  | cons d s ih =>
      rw [List.cons_append]
      cases first : isBlank d with
      | true =>
          rw [wordsFrom_cons_of_blank first, wordsFrom_cons_of_blank first, words_eq_append ih]
      | false => rw [wordsFrom_cons_of_solid first, wordsFrom_cons_of_solid first, ih]

/-- A text with the word at its start that the first of the lines has, and with the words of the
lines after it, has the words of all lines. -/
theorem words_eq_flatMap {lines : List Text}
    (same : wordsFrom t = ((wordsFrom (lines.headD [])).1,
      (wordsFrom (lines.headD [])).2 ++ lines.tail.flatMap words)) :
    words t = lines.flatMap words := by
  rw [words_eq_append same]
  cases lines <;> rfl

theorem wordsFrom_eq_of_recordLines (t : Text) :
    wordsFrom t = ((wordsFrom ((recordLines t).headD [])).1,
      (wordsFrom ((recordLines t).headD [])).2 ++ (recordLines t).tail.flatMap words) := by
  fun_induction recordLines t with
  | case1 => rfl
  | case2 rest ih =>
      rw [wordsFrom_cons_of_blank (by decide), words_cons_of_blank (by decide), words_eq_flatMap ih]
      rfl
  | case3 c rest _ isBreak ih =>
      rw [wordsFrom_cons_of_blank (isBlank_of_isRecordBreak isBreak), words_eq_flatMap ih]
      rfl
  | case4 c rest _ other ih =>
      have first : consToFirst c (recordLines rest) =
          (c :: (recordLines rest).headD []) :: (recordLines rest).tail := by
        cases recordLines rest <;> rfl
      rw [first, List.headD_cons, List.tail_cons]
      cases blank : isBlank c with
      | true =>
          rw [wordsFrom_cons_of_blank blank, wordsFrom_cons_of_blank blank, words_eq_append ih]
      | false => rw [wordsFrom_cons_of_solid blank, wordsFrom_cons_of_solid blank, ih]

/-- The words of a text are the words of its lines. -/
theorem words_eq_flatMap_recordLines (t : Text) : words t = (recordLines t).flatMap words :=
  words_eq_flatMap (wordsFrom_eq_of_recordLines t)

end Text

/-! ### The last word that names a tracefile -/

namespace Artifact

/-- The scan of the lines and of their words from the end finds the last word of all. -/
theorem mentioned?_eq (output : Text) :
    mentioned? output = ((Text.words output).filter isMention).getLast? := by
  rw [mentioned?, Text.words_eq_flatMap_recordLines, ← List.head?_reverse, ← List.filter_reverse,
    List.head?_filter, List.reverse_flatMap, List.find?_flatMap]
  rfl

/-- The place of a tracefile in the folder of test logs, name by name. -/
theorem fallback_eq (root : Path) (target : TestTarget) :
    fallback root target =
      let file := Path.ofText target.testPath
      let logs : Path := if file.isAnchored then file.parent
        else ⟨root.anchor, root.names ++ ("bazel-testlogs" : Text) :: file.parent.names⟩
      ⟨logs.anchor, logs.names ++ (if file.stem = [] ∨ file.stem = "." then [] else [file.stem]) ++
        [("coverage.dat" : Text)]⟩ := by
  have name : Path.ofText FailureCause.artifactName = ⟨.relative, ["coverage.dat"]⟩ := by decide
  have logs : Path.ofText "bazel-testlogs" = ⟨.relative, ["bazel-testlogs"]⟩ := by decide
  have stem : Path.ofText (Path.ofText target.testPath).stem = ⟨.relative,
      if (Path.ofText target.testPath).stem = [] ∨ (Path.ofText target.testPath).stem = "." then []
      else [(Path.ofText target.testPath).stem]⟩ := by
    rw [Path.ofText_of_notMem (Path.slash_notMem_stem _)]
    split
    · next empty =>
        rw [List.filter_cons_of_neg (by rw [Path.isName_iff]; tauto), List.filter_nil]
    · next some =>
        rw [List.filter_cons_of_pos (by rw [Path.isName_iff]; tauto), List.filter_nil]
  rw [fallback, Path.child_of_relative _ (by rw [name]), Path.child_of_relative _ (by rw [stem]),
    Path.child_of_relative _ (by rw [logs]), name, stem, logs]
  dsimp only
  by_cases anchored : (Path.ofText target.testPath).isAnchored = true
  · have parent : (Path.ofText target.testPath).parent.isAnchored = true := anchored
    rw [if_pos anchored, Path.join_of_isAnchored _ parent]
  · have parent : ¬ (Path.ofText target.testPath).parent.isAnchored = true := anchored
    rw [if_neg anchored, Path.join, if_neg parent, List.append_assoc root.names]
    rfl

/-- A test path with folders and a file of a stem and an extension gives all names. -/
theorem fallback_of_ofText {target : TestTarget} {folders : List Text} {stem extension : Text}
    (read : Path.ofText target.testPath = ⟨.relative, folders ++ [stem ++ '.' :: extension]⟩)
    (ne : stem ≠ []) (dot : stem ≠ ".") (ne' : extension ≠ []) (clear : '.' ∉ extension)
    (root : Path) : fallback root target =
      ⟨root.anchor, root.names ++ ("bazel-testlogs" : Text) :: folders ++
        [stem, "coverage.dat"]⟩ := by
  have stem_eq : (Path.ofText target.testPath).stem = stem := by
    rw [read, Path.stem, Path.name, List.getLastD_concat, Path.cutSuffix_append_dot ne ne' clear]
  have parent : (Path.ofText target.testPath).parent = ⟨.relative, folders⟩ := by
    rw [read, Path.parent, List.dropLast_concat]
  rw [fallback_eq]
  simp only [stem_eq, parent, if_neg (not_or.2 ⟨ne, dot⟩)]
  rw [if_neg (by rw [read]; exact Bool.false_ne_true), List.append_assoc, List.append_assoc,
    List.append_assoc]
  rfl

/--
The last word of an output that ends with `coverage.dat` is the path of the tracefile, from the
repository root unless it is anchored, whether or not there is a file.  If no word does, it is the
place in the folder of test logs, if something is there; that is the folder of the test path and a
folder named by its stem.  A blank between the words may be exchanged for any other, so it does not
matter how the output is broken into lines.
-/
theorem find?_by_last_word (ws : Workspace) (root : Path) (target : TestTarget) (output : Text) :
    (find? ws root target output =
      match ((Text.words output).filter fun word =>
          ("coverage.dat" : Text).isSuffixOf word).getLast? with
      | some word =>
        some (if (Path.ofText word).isAnchored then Path.ofText word
          else ⟨root.anchor, root.names ++ (Path.ofText word).names⟩)
      | none =>
        let file := Path.ofText target.testPath
        let logs : Path := if file.isAnchored then file.parent
          else ⟨root.anchor, root.names ++ ("bazel-testlogs" : Text) :: file.parent.names⟩
        let place : Path := ⟨logs.anchor,
          logs.names ++ (if file.stem = [] ∨ file.stem = "." then [] else [file.stem]) ++
            [("coverage.dat" : Text)]⟩
        if ws.holds place then some place else none) ∧
    (∀ folders stem extension,
      Path.ofText target.testPath = ⟨.relative, folders ++ [stem ++ '.' :: extension]⟩ →
      stem ≠ [] → stem ≠ "." → extension ≠ [] → '.' ∉ extension →
      (∀ word ∈ Text.words output, ¬ "coverage.dat".toList <:+ word) →
      find? ws root target output =
        let place : Path :=
          ⟨root.anchor, root.names ++ ("bazel-testlogs" : Text) :: folders ++
            [stem, "coverage.dat"]⟩
        if ws.holds place then some place else none) ∧
    ∀ before blank blank' after, output = before ++ blank :: after →
      Text.isBlank blank = true → Text.isBlank blank' = true →
      find? ws root target (before ++ blank' :: after) = find? ws root target output := by
  refine ⟨?_, ?_, ?_⟩
  · rw [find?, mentioned?_eq, fallback_eq]
    rfl
  · intro folders stem extension read ne dot ne' clear none
    have nothing : (Text.words output).filter isMention = [] := by
      refine List.filter_eq_nil_iff.2 fun word mem mention => ?_
      exact none word mem (List.isSuffixOf_iff_suffix.1 mention)
    rw [find?, mentioned?_eq, nothing, fallback_of_ofText read ne dot ne' clear]
    rfl
  · rintro before blank blank' after rfl isBlank isBlank'
    have same : mentioned? (before ++ blank' :: after) = mentioned? (before ++ blank :: after) := by
      rw [mentioned?_eq, mentioned?_eq, Text.words_append_of_blank isBlank,
        Text.words_append_of_blank isBlank']
    rw [find?, same, find?]

end Artifact

namespace Sample

/-- A repository with the tracefile of one test in the folder of test logs. -/
def testLogs : Workspace :=
  ⟨.folder "repo" (.folder "bazel-testlogs" (.folder "test" (.folder "ATest"
    (.file "coverage.dat" [] .empty) .empty) .empty) .empty) .empty, []⟩

def logged : TestTarget := ⟨"test/ATest.kt", "test", .standard⟩

def unlogged : TestTarget := ⟨"test/BTest.kt", "test", .standard⟩

end Sample

namespace Artifact

open Sample in
/--
Two tracefiles are named, the second on a line of its own, which is the last word of all.  Where
none is named, the test with a tracefile in the folder of test logs has that one, and the other
none.
-/
theorem find?_by_last_word_of_two_names :
    find? testLogs ⟨.root, ["repo"]⟩ logged
      "/tmp/coverage.dat then\nout/./coverage.dat written" =
        some ⟨.root, ["repo", "out", "coverage.dat"]⟩ ∧
    find? testLogs ⟨.root, ["repo"]⟩ logged
      "/tmp/coverage.dat then\tout/./coverage.dat written" =
        some ⟨.root, ["repo", "out", "coverage.dat"]⟩ ∧
    find? testLogs ⟨.root, ["repo"]⟩ logged "1 test passed" =
      some ⟨.root, ["repo", "bazel-testlogs", "test", "ATest", "coverage.dat"]⟩ ∧
    find? testLogs ⟨.root, ["repo"]⟩ unlogged "1 test passed" = none := by
  obtain ⟨found, _, same⟩ := find?_by_last_word testLogs ⟨.root, ["repo"]⟩ logged
    "/tmp/coverage.dat then\nout/./coverage.dat written"
  refine ⟨found.trans (by decide), ?_, ?_, ?_⟩
  · exact (same "/tmp/coverage.dat then" '\n' '\t' "out/./coverage.dat written" (by decide)
      (by decide) (by decide)).trans (found.trans (by decide))
  · obtain ⟨_, fallback, _⟩ := find?_by_last_word testLogs ⟨.root, ["repo"]⟩ logged "1 test passed"
    exact (fallback ["test"] "ATest" "kt" (by decide) (by decide) (by decide) (by decide)
      (by decide) (by decide)).trans (by decide)
  · obtain ⟨_, fallback, _⟩ :=
      find?_by_last_word testLogs ⟨.root, ["repo"]⟩ unlogged "1 test passed"
    exact (fallback ["test"] "BTest" "kt" (by decide) (by decide) (by decide) (by decide)
      (by decide) (by decide)).trans (by decide)

end Artifact

end FileCoverage

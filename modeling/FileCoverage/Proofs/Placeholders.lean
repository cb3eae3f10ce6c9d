import FileCoverage.Build.Command
import FileCoverage.Proofs.CanonicalPath
import FileCoverage.Proofs.Replacement
import Mathlib.Logic.Function.Basic

/-!
# Placeholders in a command

A word of a command is meant to have the values of a target in the place of its placeholders, all at
once.  The values are put in one after the other, and a value that has been put in may form a later
placeholder, by itself or with the text beside it.

So the words are as meant, whatever the command and the root are, exactly if the label and the path
of the test cannot form a later placeholder.  A path without braces hardly ever does.
-/

namespace FileCoverage.Command

/-! ### Putting in all values at once -/

/-- The placeholders of a command. -/
inductive Mark where
  | label
  | testPath
  | root
  deriving DecidableEq

/-- What stands between the braces of a placeholder. -/
def Mark.inner : Mark → Text
  | .label => "label"
  | .testPath => "test_path"
  | .root => "repo_root"

def Mark.text (m : Mark) : Text := '\x7b' :: (m.inner ++ ['\x7d'])

/-- The placeholder that stands at the start of a text. -/
def Mark.at? (t : Text) : Option Mark :=
  [label, testPath, root].find? fun m => m.text.isPrefixOf t

/--
Puts in the values of all placeholders in one go, from left to right.  `skip` counts the characters
of the placeholder just read that are still to be passed over.
-/
def substituteFrom (value : Mark → Text) : Nat → Text → Text
  | _, [] => []
  | 0, c :: rest =>
    match Mark.at? (c :: rest) with
    | some m => value m ++ substituteFrom value (m.text.length - 1) rest
    | none => c :: substituteFrom value 0 rest
  | skip + 1, _ :: rest => substituteFrom value skip rest

def substitute (value : Mark → Text) (word : Text) : Text := substituteFrom value 0 word

def Mark.value (root : Path) (target : TestTarget) : Mark → Text
  | .label => target.label
  | .testPath => target.testPath
  | .root => root.toText

/-- The words of every command are as meant, for every root. -/
def FilledAtOnce (target : TestTarget) : Prop :=
  ∀ root command, fill root target command = command.map (substitute (Mark.value root target))

variable {value : Mark → Text} {m m' : Mark} {v p r s t word : Text} {root : Path}
  {target : TestTarget}

namespace Mark

theorem text_ne_nil (m : Mark) : m.text ≠ [] := List.cons_ne_nil _ _

theorem brace_notMem_inner (m : Mark) : '\x7b' ∉ m.inner ∧ '\x7d' ∉ m.inner := by
  cases m <;> decide

/-- Only the first character of a placeholder opens one. -/
theorem opening_notMem_closed (m : Mark) : '\x7b' ∉ m.inner ++ ['\x7d'] := by
  cases m <;> decide

theorem at?_text_append (m : Mark) (rest : Text) : at? (m.text ++ rest) = some m := by
  cases m <;> rfl

theorem at?_eq_none_iff : at? t = none ↔ ∀ m : Mark, ¬ m.text <+: t := by
  rw [at?, List.find?_eq_none]
  simp only [List.isPrefixOf_iff_prefix]
  constructor
  · intro none m
    refine none m ?_
    cases m <;> decide
  · exact fun none m _ => none m

end Mark

theorem substituteFrom_eq_substitute_drop (value : Mark → Text) (skip : Nat) (t : Text) :
    substituteFrom value skip t = substitute value (t.drop skip) := by
  induction t generalizing skip with
  | nil => cases skip <;> rfl
  | cons c rest ih =>
      cases skip with
      | zero => rfl
      | succ skip => exact ih skip

theorem substitute_nil (value : Mark → Text) : substitute value [] = [] := rfl

theorem substitute_text_append (value : Mark → Text) (m : Mark) (rest : Text) :
    substitute value (m.text ++ rest) = value m ++ substitute value rest := by
  have here := m.at?_text_append rest
  have drop : ((m.inner ++ ['\x7d']) ++ rest).drop (m.text.length - 1) = rest := by
    simp [Mark.text]
  rw [Mark.text, List.cons_append] at here ⊢
  rw [substitute, substituteFrom, here]
  simp only [substituteFrom_eq_substitute_drop, drop]

theorem substitute_cons {c : Char} (other : ∀ m : Mark, ¬ m.text <+: c :: t)
    (value : Mark → Text) : substitute value (c :: t) = c :: substitute value t := by
  rw [substitute, substituteFrom, Mark.at?_eq_none_iff.2 other, substitute]

/-- The words of a command, read from left to right. -/
theorem induction_on_marks {motive : Text → Prop} (nil : motive [])
    (mark : ∀ m rest, motive rest → motive (Mark.text m ++ rest))
    (other : ∀ c rest, (∀ m : Mark, ¬ m.text <+: c :: rest) → motive rest → motive (c :: rest))
    (t : Text) : motive t := by
  refine Text.induction_on_patterns (P := fun p => ∃ m : Mark, m.text = p) ?_ nil ?_ ?_ t
  · rintro _ ⟨m, rfl⟩
    exact m.text_ne_nil
  · rintro _ ⟨m, rfl⟩ rest
    exact mark m rest
  · intro c rest none
    exact other c rest fun m => none _ ⟨m, rfl⟩

theorem substitute_text (t : Text) : substitute Mark.text t = t := by
  induction t using induction_on_marks with
  | nil => rfl
  | mark m rest ih => rw [substitute_text_append, ih]
  | other c rest none ih => rw [substitute_cons none, ih]

/-! ### Values that may form a placeholder -/

/-- A placeholder may have come about with the value in it: all of it, an end or a beginning of it,
or what is between the braces. -/
inductive MayForm (v : Text) (m : Mark) : Prop where
  | whole (held : m.text <:+: v)
  | ending {p : Text} (part : p <+: m.inner) (ends : '\x7b' :: p <:+ v)
  | beginning {r : Text} (part : r <:+ m.inner) (begins : r ++ ['\x7d'] <+: v)
  | inside (within : v <:+: m.inner)

theorem not_mayForm_of_notMem (opening : '\x7b' ∉ v) (closing : '\x7d' ∉ v)
    (apart : ¬ v <:+: m.inner) : ¬ MayForm v m := by
  intro forms
  cases forms with
  | whole held => exact opening (held.subset List.mem_cons_self)
  | ending part ends => exact opening (ends.subset List.mem_cons_self)
  | beginning part begins => exact closing (begins.subset (by simp))
  | inside within => exact apart within

/-- A placeholder begins in the value, and ends in it or goes on in what follows. -/
theorem mayForm_of_begins (ends : s <:+ v) (ne : s ≠ []) (begins : m.text <+: s ++ t) :
    MayForm v m := by
  rcases List.prefix_or_prefix_of_prefix begins (List.prefix_append s t) with held | short
  · exact .whole (held.isInfix.trans ends.isInfix)
  · obtain rfl | ⟨p, rfl, inner⟩ := List.prefix_cons_iff.1 short
    · exact absurd rfl ne
    · rcases List.prefix_concat_iff.1 inner with rfl | inner
      · exact .whole ends.isInfix
      · exact .ending inner ends

/-- A placeholder that was opened before is closed in the value, or goes on through all of it. -/
theorem mayForm_of_goes_on (part : r <:+ m.inner) (begins : r ++ ['\x7d'] <+: v ++ t) :
    MayForm v m := by
  rcases List.prefix_or_prefix_of_prefix begins (List.prefix_append v t) with closed | short
  · exact .beginning part closed
  · rcases List.prefix_concat_iff.1 short with rfl | short
    · exact .beginning part List.prefix_rfl
    · exact .inside (short.isInfix.trans part.isInfix)

/-- A placeholder forms no other one with what is beside it. -/
theorem not_mayForm_text (ne : m' ≠ m) : ¬ MayForm m'.text m := by
  intro forms
  cases forms with
  | whole held =>
      revert held ne
      cases m <;> cases m' <;> decide
  | ending part ends =>
      rcases List.suffix_cons_iff.1 ends with same | later
      · obtain ⟨-, rfl⟩ := List.cons.inj same
        exact m.brace_notMem_inner.2 (part.subset (by simp))
      · exact m'.opening_notMem_closed (later.subset List.mem_cons_self)
  | @beginning r part begins =>
      cases r with
      | nil => exact absurd (List.cons_prefix_cons.1 begins).1 (by decide)
      | cons c r =>
          obtain ⟨rfl, -⟩ := List.cons_prefix_cons.1 begins
          exact m.brace_notMem_inner.1 (part.subset List.mem_cons_self)
  | inside within => exact m.brace_notMem_inner.1 (within.subset List.mem_cons_self)

/-! ### One value after the other -/

section Apart

variable (own : value m = m.text) (apart : ∀ m', m' ≠ m → ¬ MayForm (value m') m)

include own apart in
/-- What is left of a placeholder that was opened before stands at the start of a text with values
in it only if it did without them. -/
theorem prefix_of_prefix_substitute (last : s <:+ m.inner ++ ['\x7d'])
    (begins : s <+: substitute value t) : s <+: t := by
  induction t using induction_on_marks generalizing s with
  | nil => exact begins
  | mark m' rest ih =>
      rcases List.suffix_concat_iff.1 last with rfl | ⟨r, rfl, part⟩
      · exact List.nil_prefix
      · exfalso
        rw [substitute_text_append] at begins
        by_cases same : m' = m
        · -- Another placeholder opens where this one should go on.
          rw [same, own] at begins
          obtain ⟨c, more, eq⟩ := List.exists_cons_of_ne_nil
            (List.append_ne_nil_of_right_ne_nil r (List.cons_ne_nil '\x7d' []))
          rw [eq] at begins last
          obtain ⟨rfl, -⟩ := List.cons_prefix_cons.1 begins
          exact m.opening_notMem_closed (last.subset List.mem_cons_self)
        · exact apart m' same (mayForm_of_goes_on part begins)
  | other c rest none ih =>
      rw [substitute_cons none] at begins
      rcases List.prefix_cons_iff.1 begins with rfl | ⟨more, rfl, later⟩
      · exact List.nil_prefix
      · have last := (List.suffix_cons c more).trans last
        exact List.cons_prefix_cons.2 ⟨rfl, ih last later⟩

include own apart in
/-- A placeholder that no other value forms is replaced as if all values were put in at once. -/
theorem replace_substitute (v word : Text) :
    Text.replace m.text v (substitute value word) =
      substitute (Function.update value m v) word := by
  induction word using induction_on_marks with
  | nil => rfl
  | mark m' rest ih =>
      rw [substitute_text_append, substitute_text_append, ← ih]
      by_cases same : m' = m
      · rw [same, own, Function.update_self, Text.replace_append_of_pattern m.text_ne_nil]
      · rw [Function.update_of_ne same]
        refine Text.replace_append_of_not_pattern (fun part ends ne begins => ?_) v
        exact apart m' same (mayForm_of_begins ends ne begins)
  | other c rest none ih =>
      rw [substitute_cons none, substitute_cons none, ← ih]
      refine Text.replace_cons_of_not_pattern (fun begins => none m ?_) v
      -- What the character begins would already begin there in the word.
      obtain ⟨first, begins⟩ := List.cons_prefix_cons.1 begins
      exact List.cons_prefix_cons.2
        ⟨first, prefix_of_prefix_substitute own apart List.suffix_rfl begins⟩

end Apart

/-- A value does as a placeholder does if it is that placeholder. -/
theorem replace_substitute_of_or (own : value m = m.text)
    (safe : v = m.text ∨ ∀ m', m' ≠ m → ¬ MayForm (value m') m) (word : Text) :
    Text.replace m.text v (substitute value word) =
      substitute (Function.update value m v) word := by
  rcases safe with rfl | apart
  · rw [Text.replace_self m.text_ne_nil, ← own, Function.update_eq_self]
  · exact replace_substitute own apart v word

theorem replace_label (v word : Text) : Text.replace labelMark v word =
    substitute (Function.update Mark.text .label v) word := by
  conv_lhs => rw [← substitute_text word]
  exact replace_substitute (m := .label) rfl (fun _ ne => not_mayForm_text ne) v word

/-! ### A word for a value that may form a placeholder -/

theorem substitute_append_of_notMem (clear : '\x7b' ∉ s) (value : Mark → Text) (t : Text) :
    substitute value (s ++ t) = s ++ substitute value t := by
  induction s with
  | nil => rfl
  | cons c s ih =>
      have other : ∀ m : Mark, ¬ m.text <+: c :: (s ++ t) := by
        intro m begins
        obtain ⟨rfl, -⟩ := List.cons_prefix_cons.1 begins
        exact clear List.mem_cons_self
      have later := fun mem => clear (List.mem_cons_of_mem c mem)
      rw [List.cons_append, substitute_cons other, ih later, List.cons_append]

/-- An opened placeholder is none if another one opens before it is closed. -/
theorem substitute_opened (opening : '\x7b' ∉ s) (closing : '\x7d' ∉ s) (value : Mark → Text)
    (m : Mark) (t : Text) : substitute value ('\x7b' :: s ++ (m.text ++ t)) =
      '\x7b' :: s ++ (value m ++ substitute value t) := by
  have other : ∀ m' : Mark, ¬ m'.text <+: '\x7b' :: (s ++ (m.text ++ t)) := by
    intro m' begins
    have begins := (List.cons_prefix_cons.1 begins).2
    have opened : s ++ ['\x7b'] <+: s ++ (m.text ++ t) :=
      (List.prefix_append_right_inj s).2 (List.cons_prefix_cons.2 ⟨rfl, List.nil_prefix⟩)
    rcases List.prefix_or_prefix_of_prefix begins opened with short | long
    · have : '\x7d' ∈ s ++ ['\x7b'] := short.subset (by simp)
      simp [closing] at this
    · exact m'.opening_notMem_closed (long.subset (by simp))
  rw [List.cons_append, substitute_cons other, substitute_append_of_notMem opening,
    substitute_text_append, List.cons_append]

/-- For each value that may form a placeholder there is text that forms it with the value. -/
theorem MayForm.exists_frame (forms : MayForm v m) : ∃ x y : Text, m.text <:+: x ++ (v ++ y) ∧
    ∀ value m', substitute value (x ++ (Mark.text m' ++ y)) = x ++ (value m' ++ y) := by
  have behind {q : Text} (clear : '\x7b' ∉ q) (value : Mark → Text) : substitute value q = q := by
    simpa [substitute_nil] using substitute_append_of_notMem clear value []
  have ⟨opening, closing⟩ := m.brace_notMem_inner
  cases forms with
  | whole held =>
      refine ⟨[], [], by simpa using held, fun value m' => ?_⟩
      exact substitute_text_append value m' []
  | @ending p part ends =>
      obtain ⟨q, eq⟩ := part
      obtain ⟨before, rfl⟩ := ends
      refine ⟨[], q ++ ['\x7d'], ⟨before, [], ?_⟩, fun value m' => ?_⟩
      · simp [Mark.text, ← eq]
      · rw [List.nil_append, substitute_text_append, behind, List.nil_append]
        rw [← eq] at opening
        simpa using fun mem => opening (List.mem_append_right _ mem)
  | @beginning r part begins =>
      obtain ⟨q, eq⟩ := part
      obtain ⟨after, rfl⟩ := begins
      refine ⟨'\x7b' :: q, [], ⟨[], after, ?_⟩, fun value m' => ?_⟩
      · simp [Mark.text, ← eq]
      · rw [← eq] at opening closing
        exact substitute_opened (fun mem => opening (List.mem_append_left _ mem))
          (fun mem => closing (List.mem_append_left _ mem)) value m' []
  | inside within =>
      obtain ⟨q, q', eq⟩ := within
      refine ⟨'\x7b' :: q, q' ++ ['\x7d'], ⟨[], [], ?_⟩, fun value m' => ?_⟩
      · simp [Mark.text, ← eq]
      · rw [← eq, List.mem_append, List.mem_append] at opening closing
        push Not at opening closing
        rw [substitute_opened opening.1.1 closing.1.1, behind]
        simpa using opening.2

/-! ### The words of a command -/

theorem fillWord_eq_replace_replace (root : Path) (target : TestTarget) (word : Text) :
    fillWord root target word = Text.replace rootMark root.toText (Text.replace testPathMark
      target.testPath (substitute (Function.update Mark.text .label target.label) word)) := by
  rw [fillWord, replace_label]

theorem fillWord_eq_substitute (root : Path)
    (label : ¬ MayForm target.label .root) (testPath : ¬ MayForm target.testPath .root)
    (safe : target.testPath = testPathMark ∨ ¬ MayForm target.label .testPath) (word : Text) :
    fillWord root target word = substitute (Mark.value root target) word := by
  rw [fillWord_eq_replace_replace]
  have second : Text.replace testPathMark target.testPath
      (substitute (Function.update Mark.text .label target.label) word) =
      substitute (Function.update (Function.update Mark.text .label target.label) .testPath
        target.testPath) word := by
    refine replace_substitute_of_or (m := .testPath) (by rfl) ?_ word
    refine safe.imp_right fun apart m' ne => ?_
    cases m' with
    | label => exact apart
    | testPath => exact absurd rfl ne
    | root => exact not_mayForm_text ne
  have values : Mark.value root target = Function.update (Function.update (Function.update
      Mark.text .label target.label) .testPath target.testPath) .root root.toText := by
    funext m'
    cases m' <;> rfl
  rw [second, values]
  refine replace_substitute (m := .root) (by rfl) (fun m' ne => ?_) root.toText word
  cases m' with
  | label => exact label
  | testPath => exact testPath
  | root => exact absurd rfl ne

/-- A root that is the placeholder of the root tells the text before the root is put in; any other
root tells that no value forms that placeholder. -/
theorem not_mayForm_root
    (atOnce : ∀ root word, fillWord root target word = substitute (Mark.value root target) word)
    (ne : m ≠ .root) : ¬ MayForm (Mark.value .here target m) .root := by
  intro forms
  obtain ⟨x, y, held, framed⟩ := forms.exists_frame
  have value (root : Path) : Mark.value root target m = Mark.value .here target m := by
    cases m with
    | root => exact absurd rfl ne
    | _ => rfl
  have marked := atOnce ⟨.relative, [rootMark]⟩ (x ++ (m.text ++ y))
  rw [framed, value, fillWord, show Path.toText _ = rootMark from rfl,
    Text.replace_self (by decide)] at marked
  have dotted := atOnce .here (x ++ (m.text ++ y))
  rw [framed, fillWord, marked, Text.replace_eq_self_iff (by decide)] at dotted
  rcases dotted with same | none
  · exact absurd same (by decide)
  · exact none held

theorem not_mayForm_testPath
    (atOnce : ∀ root word, fillWord root target word = substitute (Mark.value root target) word) :
    target.testPath = testPathMark ∨ ¬ MayForm target.label .testPath := by
  rw [or_iff_not_imp_right, not_not]
  intro forms
  obtain ⟨x, y, held, framed⟩ := forms.exists_frame
  have marked := atOnce ⟨.relative, [rootMark]⟩ (x ++ (Mark.text .label ++ y))
  rw [framed, fillWord_eq_replace_replace, framed, show Path.toText _ = rootMark from rfl,
    Text.replace_self (by decide)] at marked
  exact ((Text.replace_eq_self_iff (by decide)).1 marked).resolve_right (not_not.2 held)

/-! ### Paths without braces -/

theorem mem_label {c : Char} (mem : c ∈ target.label) :
    c ∈ target.testPath ∨ c = '/' ∨ c = ':' ∨ c = '.' := by
  have names : ∀ name ∈ (Path.ofText target.testPath).names, name ⊆ target.testPath := by
    intro name held d there
    have piece := (List.mem_filter.1 held).1
    rw [← Text.join_splitOn '/' target.testPath]
    exact Text.mem_join_of_mem piece there
  generalize eq : Path.ofText target.testPath = p at names
  simp only [TestTarget.label, eq, List.mem_append] at mem
  rcases mem with ((slashes | folder) | colon) | stem
  · exact .inr (.inl (by simpa using slashes))
  · rw [Path.toText] at folder
    split at folder
    · exact .inr (.inr (.inr (by simpa using folder)))
    · rcases List.mem_append.1 folder with anchor | joined
      · exact .inr (.inl (by cases h : p.anchor <;> simp_all [Path.parent, Anchor.toText]))
      · rcases Text.mem_join joined with slash | ⟨name, held, there⟩
        · exact .inr (.inl (by simpa using slash))
        · exact .inl (names name (List.mem_of_mem_dropLast held) there)
  · exact .inr (.inr (.inl (by simpa using colon)))
  · have inName : c ∈ p.name := by
      rw [← Path.cutSuffix_append p.name]
      exact List.mem_append_left _ stem
    rw [Path.name, List.getLastD_eq_getLast?] at inName
    cases last : p.names.getLast? with
    | none => simp [last] at inName
    | some name =>
        rw [last] at inName
        exact .inl (names name (List.mem_of_getLast? last) inName)

theorem not_mayForm_of_braceless (opening : '\x7b' ∉ target.testPath)
    (closing : '\x7d' ∉ target.testPath) (m : Mark) : ¬ MayForm target.label m := by
  refine not_mayForm_of_notMem (fun mem => ?_) (fun mem => ?_) fun within => ?_
  · simpa [opening] using mem_label mem
  · simpa [closing] using mem_label mem
  · have : '/' ∈ m.inner := within.subset List.mem_cons_self
    cases m <;> exact absurd this (by decide)

theorem filledAtOnce_iff : FilledAtOnce target ↔
    (¬ MayForm target.testPath .root ∧ ¬ MayForm target.label .root) ∧
      (target.testPath = testPathMark ∨ ¬ MayForm target.label .testPath) := by
  constructor
  · intro all
    have atOnce (root : Path) (word : Text) :
        fillWord root target word = substitute (Mark.value root target) word := by
      simpa [fill] using all root [word]
    exact ⟨⟨not_mayForm_root atOnce (m := .testPath) (by decide),
      not_mayForm_root atOnce (m := .label) (by decide)⟩, not_mayForm_testPath atOnce⟩
  · rintro ⟨⟨testPath, label⟩, safe⟩ root command
    exact List.map_congr_left fun word _ => fillWord_eq_substitute root label testPath safe word

/--
A command has one word for each of its words.  The words are as meant, whatever they and the root
are, exactly if neither the path of the test nor the label may form the placeholder of the root, and
the label may not form that of the path unless the path is that placeholder itself.  If there is no
brace in the path of the test, it only must not be a part of the name of the root's placeholder.
-/
theorem fill_at_once_iff (target : TestTarget) :
    (∀ root command, (fill root target command).length = command.length) ∧
    (FilledAtOnce target ↔
      (¬ MayForm target.testPath .root ∧ ¬ MayForm target.label .root) ∧
        (target.testPath = testPathMark ∨ ¬ MayForm target.label .testPath)) ∧
    ('\x7b' ∉ target.testPath → '\x7d' ∉ target.testPath →
      (FilledAtOnce target ↔ ¬ target.testPath <:+: Mark.root.inner)) := by
  refine ⟨fun root command => length_fill root target command, filledAtOnce_iff, ?_⟩
  intro opening closing
  have label := not_mayForm_of_braceless opening closing
  rw [filledAtOnce_iff]
  constructor
  · exact fun apart within => apart.1.1 (.inside within)
  · exact fun apart =>
      ⟨⟨not_mayForm_of_notMem opening closing apart, label .root⟩, .inr (label .testPath)⟩

theorem fill_at_once_iff_of_test :
    fill ⟨.relative, ["repo"]⟩ ⟨"app/test/java/com/example/AddNumsTest.kt", "test", .standard⟩
        ["bazel", "\x7brepo_\x7blabel\x7d", "\x7broot\x7d\x7brepo_root\x7d"] =
      ["bazel", "\x7brepo_//app/test/java/com/example:AddNumsTest", "\x7broot\x7drepo"] :=
  (((fill_at_once_iff ⟨"app/test/java/com/example/AddNumsTest.kt", "test", .standard⟩).2.2
    (by decide) (by decide)).2 (by decide) _ _).trans (by decide)

/-- A label that holds the placeholder of the root, and an end of it beside the path of a test. -/
theorem fill_twice :
    fill ⟨.relative, ["repo"]⟩ ⟨"test/\x7brepo_root\x7dTest.kt", "test", .standard⟩
      ["\x7blabel\x7d"] = ["//test:repoTest"] ∧
    substitute
        (Mark.value ⟨.relative, ["repo"]⟩ ⟨"test/\x7brepo_root\x7dTest.kt", "test", .standard⟩)
        "\x7blabel\x7d" = "//test:\x7brepo_root\x7dTest" ∧
    fill ⟨.relative, ["repo"]⟩ ⟨"root", "test", .standard⟩ ["\x7brepo_\x7btest_path\x7d\x7d"] =
      ["repo"] ∧
    substitute (Mark.value ⟨.relative, ["repo"]⟩ ⟨"root", "test", .standard⟩)
      "\x7brepo_\x7btest_path\x7d\x7d" = "\x7brepo_root\x7d" := by
  decide

end FileCoverage.Command

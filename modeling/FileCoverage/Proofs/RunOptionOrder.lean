import FileCoverage.CommandLine.RunOptions
import FileCoverage.Proofs.Except
import FileCoverage.Proofs.Pieces
import Mathlib.Data.List.Nodup
import Mathlib.Data.List.Perm.Basic

/-!
# In which order the options of a run are given

An argument stands for a format or for a number of minutes by itself, whatever stands beside it.
The options are valid if every argument is, and then the last format and the last minutes count.  So
the order matters only between arguments of one key.
-/

namespace FileCoverage

namespace RunOptions

variable {vars : Variables} {arguments arguments' : List Text} {options found : RunOptions}
  {argument value name : Text} {given given' : List Assignment}

/-! ### Single arguments -/

/-- The argument is a key, an equals sign and the value; the key is the name, but for blanks around
it and the case of its letters. -/
def IsPair (name argument value : Text) : Prop :=
  ∃ key, '=' ∉ key ∧ argument = key ++ '=' :: value ∧ Text.lower (Text.trim key) = name

/-- What an argument stands for. -/
inductive Gives (argument : Text) : Assignment → Prop where
  | format {value : Text} {format : ReportFormat} (pair : IsPair "format" argument value)
      (named : Text.upper (Text.trim value) = format.name) : Gives argument (.format format)
  | minutes {value : Text} {n : Int} (pair : IsPair "processtimeout" argument value)
      (number : Numeral.parse (Text.trim value) = .ok n) (pos : 0 < n) :
      Gives argument (.minutes n)

def Assignment.key : Assignment → Text
  | .format _ => "format"
  | .minutes _ => "processtimeout"

/-- The key of an argument, without blanks around it and in small letters. -/
def keyOf (argument : Text) : Text := Text.lower (Text.trim (argument.takeWhile (· ≠ '=')))

theorem parse?_eq_some_iff {format : ReportFormat} :
    ReportFormat.parse? value = some format ↔ Text.upper (Text.trim value) = format.name := by
  rw [ReportFormat.parse?, List.find?_cons, List.find?_cons, List.find?_nil]
  have apart : ReportFormat.markdown.name ≠ ReportFormat.html.name := by decide
  cases format <;> grind

theorem minutesOf_eq_ok_iff {n : Int} :
    minutesOf value = .ok n ↔ Numeral.parse (Text.trim value) = .ok n ∧ 0 < n := by
  rw [minutesOf]
  cases Numeral.parse (Text.trim value) with
  | error fault => simp
  | ok m =>
      simp only [Except.ok.injEq]
      split
      · next low => simp only [reduceCtorEq, false_iff, not_and]; omega
      · next pos => simp only [Except.ok.injEq]; omega

theorem assignment_of_format (pair : IsPair "format" argument value) :
    assignment argument = match ReportFormat.parse? value with
      | some format => .ok (.format format)
      | none => .error (.unsupportedFormat value) := by
  obtain ⟨key, clear, rfl, isName⟩ := pair
  rw [assignment, Text.cutAt?_append clear]
  exact if_pos isName

theorem assignment_of_minutes (pair : IsPair "processtimeout" argument value) :
    assignment argument = (minutesOf value).map .minutes := by
  obtain ⟨key, clear, rfl, isName⟩ := pair
  rw [assignment, Text.cutAt?_append clear]
  have other : Text.lower (Text.trim key) ≠ "format" := by
    rw [isName]
    decide
  exact (if_neg other).trans (if_pos isName)

theorem gives_of_assignment {a : Assignment} (found : assignment argument = .ok a) :
    Gives argument a := by
  rw [assignment.eq_def] at found
  split at found
  · cases found
  · next key value cut =>
      obtain ⟨clear, rfl⟩ := Text.cutAt?_eq_some_iff.1 cut
      simp only at found
      split at found
      · next isFormat =>
          split at found
          · next format named =>
              cases found
              exact .format ⟨key, clear, rfl, isFormat⟩ (parse?_eq_some_iff.1 named)
          · cases found
      · split at found
        · next isMinutes =>
            obtain ⟨n, number, rfl⟩ := map_eq_ok_iff.1 found
            obtain ⟨number, pos⟩ := minutesOf_eq_ok_iff.1 number
            exact .minutes ⟨key, clear, rfl, isMinutes⟩ number pos
        · cases found

theorem assignment_eq_ok_iff {a : Assignment} :
    assignment argument = .ok a ↔ Gives argument a := by
  refine ⟨gives_of_assignment, fun gives => ?_⟩
  cases gives with
  | format pair named => rw [assignment_of_format pair, parse?_eq_some_iff.2 named]
  | minutes pair number pos =>
      rw [assignment_of_minutes pair, minutesOf_eq_ok_iff.2 ⟨number, pos⟩]
      rfl

theorem Gives.unique {a b : Assignment} (gives : Gives argument a) (gives' : Gives argument b) :
    a = b :=
  Except.ok.inj ((assignment_eq_ok_iff.2 gives).symm.trans (assignment_eq_ok_iff.2 gives'))

theorem IsPair.keyOf_eq (pair : IsPair name argument value) : keyOf argument = name := by
  obtain ⟨key, clear, rfl, rfl⟩ := pair
  have before : (key ++ '=' :: value).takeWhile (· ≠ '=') = key := by
    rw [List.takeWhile_append_of_pos, List.takeWhile_cons_of_neg (by simp), List.append_nil]
    intro c mem
    exact decide_eq_true fun same => clear (same ▸ mem)
  rw [keyOf, before]

theorem Gives.keyOf_eq {a : Assignment} (gives : Gives argument a) : keyOf argument = a.key := by
  cases gives with
  | format pair => exact pair.keyOf_eq
  | minutes pair => exact pair.keyOf_eq

/-! ### All arguments -/

theorem read_cons_eq_ok_iff : read options (argument :: arguments) = .ok found ↔
    ∃ a, Gives argument a ∧ read (options.set a) arguments = .ok found := by
  rw [read]
  cases first : assignment argument with
  | error fault =>
      refine iff_of_false nofun ?_
      rintro ⟨a, gives, _⟩
      cases first.symm.trans (assignment_eq_ok_iff.2 gives)
  | ok a =>
      have gives := assignment_eq_ok_iff.1 first
      refine ⟨fun rest => ⟨a, gives, rest⟩, ?_⟩
      rintro ⟨b, gives', rest⟩
      rwa [gives.unique gives']

theorem read_append_eq_ok {before : List Text}
    (parsed : read options (before ++ arguments) = .ok found) :
    ∃ between, read options before = .ok between ∧ read between arguments = .ok found := by
  induction before generalizing options with
  | nil => exact ⟨options, rfl, parsed⟩
  | cons argument before ih =>
      obtain ⟨a, gives, rest⟩ := read_cons_eq_ok_iff.1 parsed
      obtain ⟨between, early, late⟩ := ih rest
      exact ⟨between, read_cons_eq_ok_iff.2 ⟨a, gives, early⟩, late⟩

theorem read_eq_ok_iff : read options arguments = .ok found ↔
    ∃ given, List.Forall₂ Gives arguments given ∧ found = given.foldl set options := by
  induction arguments generalizing options with
  | nil => simp [eq_comm]
  | cons argument rest ih =>
      simp only [read_cons_eq_ok_iff, ih, List.forall₂_cons_left_iff]
      constructor
      · rintro ⟨a, gives, more, each, same⟩
        exact ⟨a :: more, ⟨a, more, gives, each, rfl⟩, same⟩
      · rintro ⟨_, ⟨a, more, gives, each, rfl⟩, same⟩
        exact ⟨a, gives, more, each, same⟩

theorem exists_read_eq_ok_iff : (∃ found, read options arguments = .ok found) ↔
    ∀ argument ∈ arguments, ∃ a, Gives argument a := by
  induction arguments generalizing options with
  | nil => simp
  | cons argument rest ih =>
      simp only [read_cons_eq_ok_iff, List.forall_mem_cons]
      rw [exists_comm]
      simp only [exists_and_left, ih, exists_and_right]

/-- What no argument sets is as it was. -/
theorem read_keeps {α : Type} (part : RunOptions → α)
    (kept : ∀ argument ∈ arguments, ∀ a, Gives argument a → ∀ o, part (set o a) = part o)
    (parsed : read options arguments = .ok found) : part found = part options := by
  induction arguments generalizing options with
  | nil =>
      cases parsed
      rfl
  | cons argument rest ih =>
      obtain ⟨first, later⟩ := List.forall_mem_cons.1 kept
      obtain ⟨a, gives, parsed⟩ := read_cons_eq_ok_iff.1 parsed
      rw [ih later parsed, first a gives]

/-- What no later argument sets is as an argument sets it. -/
theorem read_last {α : Type} (part : RunOptions → α) {before after : List Text} {a : Assignment}
    (gives : Gives argument a)
    (kept : ∀ later ∈ after, ∀ b, Gives later b → ∀ o, part (set o b) = part o)
    (parsed : read options (before ++ argument :: after) = .ok found) :
    ∃ o, part found = part (set o a) := by
  obtain ⟨between, _, parsed⟩ := read_append_eq_ok parsed
  obtain ⟨b, gives', parsed⟩ := read_cons_eq_ok_iff.1 parsed
  obtain rfl := gives.unique gives'
  exact ⟨between, read_keeps part kept parsed⟩

theorem one_le_minutes (parsed : read options arguments = .ok found) (le : 1 ≤ options.minutes) :
    1 ≤ found.minutes := by
  induction arguments generalizing options with
  | nil =>
      cases parsed
      exact le
  | cons argument rest ih =>
      obtain ⟨a, gives, parsed⟩ := read_cons_eq_ok_iff.1 parsed
      refine ih parsed ?_
      cases gives with
      | format => exact le
      | minutes _ _ pos => exact pos

theorem format_set (other : ∀ format, ¬ Gives argument (.format format)) {a : Assignment}
    (gives : Gives argument a) (o : RunOptions) : (o.set a).format = o.format := by
  cases a with
  | format format => exact absurd gives (other format)
  | minutes n => rfl

theorem minutes_set (other : ∀ n, ¬ Gives argument (.minutes n)) {a : Assignment}
    (gives : Gives argument a) (o : RunOptions) : (o.set a).minutes = o.minutes := by
  cases a with
  | format format => rfl
  | minutes n => exact absurd gives (other n)

/-- A format keeps the minutes, and minutes keep the format. -/
theorem set_comm {a b : Assignment} (apart : a.key = b.key → a = b) (options : RunOptions) :
    (options.set a).set b = (options.set b).set a := by
  cases a with
  | format format =>
      cases b with
      | format format' => rw [apart rfl]
      | minutes n => rfl
  | minutes n =>
      cases b with
      | format format => rfl
      | minutes n' => rw [apart rfl]

theorem map_keyOf_eq (each : List.Forall₂ Gives arguments given) :
    arguments.map keyOf = given.map Assignment.key := by
  induction each with
  | nil => rfl
  | cons gives _ ih => rw [List.map_cons, List.map_cons, gives.keyOf_eq, ih]

/-- Arguments of different keys may be given in any order. -/
theorem read_of_perm (perm : arguments'.Perm arguments) (distinct : (arguments.map keyOf).Nodup)
    (parsed : read options arguments = .ok found) : read options arguments' = .ok found := by
  obtain ⟨given, each, rfl⟩ := read_eq_ok_iff.1 parsed
  obtain ⟨given', each', perm'⟩ := List.perm_comp_forall₂ perm each
  refine read_eq_ok_iff.2 ⟨given', each', ?_⟩
  rw [map_keyOf_eq each] at distinct
  refine perm'.symm.foldl_eq' (fun a mem b mem' o => set_comm ?_ o) options
  exact List.inj_on_of_nodup_map distinct mem mem'

/-! ### The environment -/

/-- The minutes that the environment gives: those of a variable, but at least one, or ten. -/
inductive EnvironmentGives (vars : Variables) : Int → Prop where
  | absent (unset : vars.get? "RUNCOV_PROCESS_TIMEOUT_MINUTES" = none) : EnvironmentGives vars 10
  | number {t : Text} {n : Int} (set : vars.get? "RUNCOV_PROCESS_TIMEOUT_MINUTES" = some t)
      (number : Numeral.parse t = .ok n) : EnvironmentGives vars (max 1 n)
  /-- The text of the variable is no number, as the empty text is none. -/
  | invalid {t : Text} {fault : NumeralFault}
      (set : vars.get? "RUNCOV_PROCESS_TIMEOUT_MINUTES" = some t)
      (invalid : Numeral.parse t = .error fault) : EnvironmentGives vars 10

theorem environmentGives_timeoutMinutes (vars : Variables) :
    EnvironmentGives vars (Settings.timeoutMinutes vars).1 := by
  have ten : Numeral.parse (Text.ofInt Settings.defaultTimeout) = .ok 10 := by decide
  rw [Settings.timeoutMinutes, Settings.integer, Variables.getOr]
  cases set : vars.get? "RUNCOV_PROCESS_TIMEOUT_MINUTES" with
  | none =>
      simp only [ten]
      exact .absent set
  | some t =>
      by_cases empty : t = []
      · subst empty
        simp only [if_true, ten]
        exact .invalid set rfl
      · simp only [if_neg empty]
        cases number : Numeral.parse t with
        | ok n => exact .number set number
        | error fault => exact .invalid set number

namespace EnvironmentGives

variable {minutes : Int} {t : Text}

theorem eq_of_number {n : Int} (gives : EnvironmentGives vars minutes)
    (set : vars.get? "RUNCOV_PROCESS_TIMEOUT_MINUTES" = some t)
    (number : Numeral.parse t = .ok n) : minutes = max 1 n := by
  cases gives with
  | absent unset => cases set.symm.trans unset
  | number set' number' =>
      cases set.symm.trans set'
      cases number.symm.trans number'
      rfl
  | invalid set' invalid =>
      cases set.symm.trans set'
      cases number.symm.trans invalid

theorem eq_of_invalid {fault : NumeralFault} (gives : EnvironmentGives vars minutes)
    (set : vars.get? "RUNCOV_PROCESS_TIMEOUT_MINUTES" = some t)
    (invalid : Numeral.parse t = .error fault) : minutes = 10 := by
  cases gives with
  | absent unset => cases set.symm.trans unset
  | number set' number =>
      cases set.symm.trans set'
      cases number.symm.trans invalid
  | invalid _ _ => rfl

end EnvironmentGives

/--
The options are valid exactly if every argument is, a format or a positive number of minutes by its
key and its value.  So the order does not matter for that.  The last format counts, or Markdown if
there is none, and the last minutes, or those of the environment.  There is always at least one
minute, and arguments of different keys give the same options in every order.
-/
theorem parse_by_last (vars : Variables) (arguments : List Text) :
    ((∃ options, parse vars arguments = .ok options) ↔
      ∀ argument ∈ arguments, ∃ a, Gives argument a) ∧
    (∀ arguments' : List Text, arguments'.Perm arguments →
      ((∃ options, parse vars arguments' = .ok options) ↔
        ∃ options, parse vars arguments = .ok options)) ∧
    ∀ options, parse vars arguments = .ok options →
      (∀ before argument after format, arguments = before ++ argument :: after →
        Gives argument (.format format) →
        (∀ later ∈ after, ∀ other, ¬ Gives later (.format other)) → options.format = format) ∧
      ((∀ argument ∈ arguments, ∀ other, ¬ Gives argument (.format other)) →
        options.format = .markdown) ∧
      (∀ before argument after n, arguments = before ++ argument :: after →
        Gives argument (.minutes n) →
        (∀ later ∈ after, ∀ other, ¬ Gives later (.minutes other)) → options.minutes = n) ∧
      ((∀ argument ∈ arguments, ∀ other, ¬ Gives argument (.minutes other)) →
        EnvironmentGives vars options.minutes) ∧
      1 ≤ options.minutes ∧
      ∀ arguments' : List Text, arguments'.Perm arguments → (arguments.map keyOf).Nodup →
        parse vars arguments' = .ok options := by
  refine ⟨exists_read_eq_ok_iff, ?_, ?_⟩
  · intro arguments' perm
    rw [parse, parse, exists_read_eq_ok_iff, exists_read_eq_ok_iff]
    exact forall_congr' fun argument => by rw [perm.mem_iff]
  · intro options parsed
    refine ⟨?_, ?_, ?_, ?_, ?_, ?_⟩
    · rintro before argument after format rfl gives last
      obtain ⟨o, same⟩ := read_last RunOptions.format gives
        (fun later mem _ => format_set (last later mem)) parsed
      exact same
    · intro none
      exact read_keeps RunOptions.format
        (fun argument mem _ => format_set (none argument mem)) parsed
    · rintro before argument after n rfl gives last
      obtain ⟨o, same⟩ := read_last RunOptions.minutes gives
        (fun later mem _ => minutes_set (last later mem)) parsed
      exact same
    · intro none
      have kept := read_keeps RunOptions.minutes
        (fun argument mem _ => minutes_set (none argument mem)) parsed
      rw [kept]
      exact environmentGives_timeoutMinutes vars
    · exact one_le_minutes parsed (Int.le_max_left 1 _)
    · exact fun arguments' perm distinct => read_of_perm perm distinct parsed

/--
Of two formats the last counts; with one format, the minutes may stand before or after it.  Without
minutes, the environment gives them, but not if they are no number.
-/
theorem parse_by_last_of_two_formats :
    (∃ options, parse [] ["format=html", "processTimeout=3", " Format =markdown"] = .ok options ∧
      options.format = .markdown ∧ options.minutes = 3) ∧
    parse [] ["processTimeout=3", "format=html"] = .ok ⟨.html, 3⟩ ∧
    (∃ options, parse [("RUNCOV_PROCESS_TIMEOUT_MINUTES", "25")] ["format=html"] = .ok options ∧
      options.minutes = 25) ∧
    ∃ options, parse [("RUNCOV_PROCESS_TIMEOUT_MINUTES", "soon")] ["format=html"] = .ok options ∧
      options.minutes = 10 := by
  have html : Gives "format=html" (.format .html) := assignment_eq_ok_iff.1 (by decide)
  have three : Gives "processTimeout=3" (.minutes 3) := assignment_eq_ok_iff.1 (by decide)
  have markdown : Gives " Format =markdown" (.format .markdown) :=
    assignment_eq_ok_iff.1 (by decide)
  have untimed : ∀ argument ∈ (["format=html"] : List Text),
      ∀ n, ¬ Gives argument (.minutes n) := by
    intro argument mem n gives
    obtain rfl := List.mem_singleton.1 mem
    cases gives.unique html
  have only (vars : Variables) : ∃ options, parse vars ["format=html"] = .ok options ∧
      EnvironmentGives vars options.minutes := by
    obtain ⟨valid, _, last⟩ := parse_by_last vars ["format=html"]
    obtain ⟨options, parsed⟩ := valid.2 (by simpa using ⟨_, html⟩)
    obtain ⟨_, _, _, minutes, _⟩ := last options parsed
    exact ⟨options, parsed, minutes untimed⟩
  refine ⟨?_, ?_, ?_, ?_⟩
  · obtain ⟨valid, _, last⟩ :=
      parse_by_last [] ["format=html", "processTimeout=3", " Format =markdown"]
    obtain ⟨options, parsed⟩ := valid.2 (by simpa using ⟨⟨_, html⟩, ⟨_, three⟩, ⟨_, markdown⟩⟩)
    obtain ⟨format, _, minutes, _⟩ := last options parsed
    refine ⟨options, parsed, ?_, ?_⟩
    · exact format ["format=html", "processTimeout=3"] " Format =markdown" [] _ rfl markdown nofun
    · refine minutes ["format=html"] "processTimeout=3" [" Format =markdown"] _ rfl three ?_
      intro later mem n gives
      obtain rfl := List.mem_singleton.1 mem
      cases gives.unique markdown
  · obtain ⟨_, _, last⟩ := parse_by_last [] ["format=html", "processTimeout=3"]
    have parsed : parse [] ["format=html", "processTimeout=3"] = .ok ⟨.html, 3⟩ := by decide
    obtain ⟨_, _, _, _, _, ordered⟩ := last _ parsed
    exact ordered _ (List.Perm.swap _ _ []) (by decide)
  · obtain ⟨options, parsed, gives⟩ := only [("RUNCOV_PROCESS_TIMEOUT_MINUTES", "25")]
    have number : Numeral.parse "25" = .ok 25 := by decide
    exact ⟨options, parsed, gives.eq_of_number rfl number⟩
  · obtain ⟨options, parsed, gives⟩ := only [("RUNCOV_PROCESS_TIMEOUT_MINUTES", "soon")]
    have invalid : Numeral.parse "soon" = .error .malformed := by decide
    exact ⟨options, parsed, gives.eq_of_invalid rfl invalid⟩

end RunOptions

end FileCoverage

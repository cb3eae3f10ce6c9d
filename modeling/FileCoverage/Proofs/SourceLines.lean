import FileCoverage.Proofs.Pieces
import FileCoverage.Proofs.Utf8RoundTrip
import FileCoverage.Source
import Mathlib.Data.List.Basic

/-!
# Source lines

A source line starts at the start of the text and behind every break that something follows, and it
goes on up to the next break.  No other character starts a line.  So unifying the breaks changes no
line, the lines joined by line feeds are the unified text without its final one, and there are as
many lines as breaks, and one more if no break ends the text.

A carriage return with a line feed behind it is one break.  Where it may stand, the proofs go
through the text by the cases of `unifyBreaks`, which takes the two together.
-/

namespace FileCoverage

namespace Text

/-! ### Places of breaks and of lines -/

def isBreak (c : Char) : Bool := c = '\r' || c = '\n'

/-- A break ends here: with a line feed, or with a carriage return that none follows. -/
def EndsBreakAt (t : Text) (i : Nat) : Prop :=
  t[i]? = some '\n' ∨ t[i]? = some '\r' ∧ t[i + 1]? ≠ some '\n'

instance (t : Text) : DecidablePred (EndsBreakAt t) := fun i =>
  inferInstanceAs (Decidable (t[i]? = some '\n' ∨ t[i]? = some '\r' ∧ t[i + 1]? ≠ some '\n'))

/-- How many breaks there are, a carriage return and the line feed behind it being one. -/
def breakCount (t : Text) : Nat := (List.range t.length).countP (EndsBreakAt t ·)

def StartsLineAt (t : Text) : Nat → Prop
  | 0 => True
  | i + 1 => EndsBreakAt t i

instance (t : Text) : DecidablePred (StartsLineAt t)
  | 0 => inferInstanceAs (Decidable True)
  | i + 1 => inferInstanceAs (Decidable (EndsBreakAt t i))

/-- The places of the text at which a line starts. -/
def lineStarts (t : Text) : List Nat := (List.range t.length).filter (StartsLineAt t ·)

/-- What stands between a place and the next break. -/
def lineFrom (t : Text) (i : Nat) : Text := (t.drop i).takeWhile fun c => !isBreak c

def EndsInBreak (t : Text) : Prop := ∃ c ∈ t.getLast?, isBreak c = true

instance (t : Text) : Decidable (EndsInBreak t) :=
  decidable_of_iff (t.getLast?.any isBreak = true) (by simp [EndsInBreak, Option.any_eq_true])

def withoutFinalLineFeed (t : Text) : Text := if t.getLast? = some '\n' then t.dropLast else t

theorem isBreak_eq_true_iff (c : Char) : isBreak c = true ↔ c = '\r' ∨ c = '\n' := by
  simp [isBreak]

theorem isBreak_eq_false_iff (c : Char) : isBreak c = false ↔ c ≠ '\r' ∧ c ≠ '\n' := by
  simp [isBreak]

theorem single_of_not_pair {c : Char} {t : Text}
    (other : ∀ rest, c = '\r' → t = '\n' :: rest → False) :
    ¬ (c = '\r' ∧ t.head? = some '\n') := by
  rintro ⟨ret, first⟩
  obtain ⟨rest, eq⟩ := List.head?_eq_some_iff.1 first
  exact other rest ret eq

/-! ### The break that ends a text -/

theorem dropFinalBreak_prefix (t : Text) : dropFinalBreak t <+: t := by
  have behind (ending : Text) {before : Text} (eq : t.reverse = ending ++ before) :
      before.reverse <+: t :=
    ⟨ending.reverse, by rw [← List.reverse_append, ← eq, List.reverse_reverse]⟩
  fun_cases dropFinalBreak t with
  | case1 before eq => exact behind ['\n', '\r'] eq
  | case2 before _ eq => exact behind ['\n'] eq
  | case3 before eq => exact behind ['\r'] eq
  | case4 => exact List.prefix_rfl

theorem dropFinalBreak_singleton (c : Char) :
    dropFinalBreak [c] = if isBreak c then [] else [c] := by
  by_cases feed : c = '\n'
  · rw [feed]
    rfl
  · by_cases ret : c = '\r'
    · rw [ret]
      rfl
    · rw [dropFinalBreak.eq_def]
      simp [isBreak, feed, ret]

theorem dropFinalBreak_cons {c : Char} {t : Text} (ne : t ≠ [])
    (other : ¬ (c = '\r' ∧ t = ['\n'])) : dropFinalBreak (c :: t) = c :: dropFinalBreak t := by
  have back : (c :: t).reverse = t.reverse ++ [c] := List.reverse_cons
  fun_cases dropFinalBreak t with
  | case1 before eq | case3 before eq =>
      rw [dropFinalBreak, back, eq]
      simp
  | case2 before single eq =>
      rw [dropFinalBreak, back, eq]
      cases before with
      | nil =>
          -- The text is the line feed, so the character in front is no carriage return.
          have plain : c ≠ '\r' := fun ret => other ⟨ret, List.reverse_inj.1 eq⟩
          simp [plain]
      | cons d before =>
          have plain : d ≠ '\r' := by
            rintro rfl
            exact single _ rfl
          simp [plain]
  | case4 _ feed ret =>
      obtain ⟨d, more, eq⟩ := List.exists_cons_of_ne_nil (mt List.reverse_eq_nil_iff.1 ne)
      have noFeed : d ≠ '\n' := by
        rintro rfl
        exact feed _ eq
      have noReturn : d ≠ '\r' := by
        rintro rfl
        exact ret _ eq
      rw [dropFinalBreak, back, eq]
      simp [noFeed, noReturn]

/-! ### Lines, character by character -/

theorem splitBreaks_cons {c : Char} {t : Text} (single : ¬ (c = '\r' ∧ t.head? = some '\n')) :
    splitBreaks (c :: t) =
      if isBreak c then [] :: splitBreaks t else consToFirst c (splitBreaks t) := by
  rw [splitBreaks.eq_def]
  split
  · next eq => cases eq
  · next eq =>
      obtain ⟨rfl, rfl⟩ := List.cons.inj eq
      exact absurd ⟨rfl, rfl⟩ single
  · next eq =>
      obtain ⟨rfl, rfl⟩ := List.cons.inj eq
      simp only [isBreak_eq_true_iff]
      split
      · rfl
      · cases splitBreaks _ <;> rfl

theorem sourceLines_of_ne_nil {t : Text} (ne : t ≠ []) :
    sourceLines t = splitBreaks (dropFinalBreak t) :=
  if_neg ne

theorem sourceLines_ne_nil {t : Text} (ne : t ≠ []) : sourceLines t ≠ [] := by
  rw [sourceLines_of_ne_nil ne]
  exact splitBreaks_ne_nil _

theorem sourceLines_pair (t : Text) : sourceLines ('\r' :: '\n' :: t) = [] :: sourceLines t := by
  rw [sourceLines_of_ne_nil (List.cons_ne_nil _ _)]
  by_cases nil : t = []
  · rw [nil]
    rfl
  · rw [dropFinalBreak_cons (List.cons_ne_nil _ _) (by simp [nil]),
      dropFinalBreak_cons nil (by simp), splitBreaks, sourceLines_of_ne_nil nil]

theorem sourceLines_cons {c : Char} {t : Text} (single : ¬ (c = '\r' ∧ t.head? = some '\n')) :
    sourceLines (c :: t) =
      if isBreak c then [] :: sourceLines t else consToFirst c (sourceLines t) := by
  rw [sourceLines_of_ne_nil (List.cons_ne_nil _ _)]
  by_cases nil : t = []
  · rw [nil, dropFinalBreak_singleton]
    split
    · rfl
    · next other =>
        rw [splitBreaks_cons (by simp), if_neg other]
        rfl
  · have whole : ¬ (c = '\r' ∧ t = ['\n']) := by
      rintro ⟨rfl, rfl⟩
      exact single ⟨rfl, rfl⟩
    have single' : ¬ (c = '\r' ∧ (dropFinalBreak t).head? = some '\n') := by
      rintro ⟨ret, first⟩
      obtain ⟨more, eq⟩ := dropFinalBreak_prefix t
      refine single ⟨ret, ?_⟩
      rw [← eq, List.head?_append, first]
      rfl
    rw [dropFinalBreak_cons nil whole, splitBreaks_cons single', sourceLines_of_ne_nil nil]

theorem mem_consToFirst {c : Char} {line : Text} {lines : List Text}
    (mem : line ∈ consToFirst c lines) :
    line ∈ lines ∨ ∃ rest, line = c :: rest ∧ (rest = [] ∨ rest ∈ lines) := by
  cases lines with
  | nil =>
      obtain rfl := List.mem_singleton.1 mem
      exact .inr ⟨[], rfl, .inl rfl⟩
  | cons first lines =>
      rcases List.mem_cons.1 mem with rfl | later
      · exact .inr ⟨first, rfl, .inr List.mem_cons_self⟩
      · exact .inl (List.mem_cons_of_mem _ later)

theorem isBreak_of_mem_sourceLines {t line : Text} (mem : line ∈ sourceLines t) {c : Char}
    (inside : c ∈ line) : isBreak c = false := by
  fun_induction unifyBreaks t generalizing line with
  | case1 => cases mem
  | case2 rest ih =>
      rw [sourceLines_pair, List.mem_cons] at mem
      rcases mem with rfl | later
      · cases inside
      · exact ih later inside
  | case3 d rest other ih =>
      rw [sourceLines_cons (single_of_not_pair other)] at mem
      split at mem
      · rcases List.mem_cons.1 mem with rfl | later
        · cases inside
        · exact ih later inside
      · next plain =>
          rcases mem_consToFirst mem with later | ⟨more, rfl, first⟩
          · exact ih later inside
          · rcases List.mem_cons.1 inside with rfl | inside
            · exact Bool.eq_false_iff.2 plain
            · rcases first with rfl | first
              · cases inside
              · exact ih first inside

/-! ### Lines that are each ended by a line feed -/

theorem sourceLines_append_lineFeed {line : Text} (clear : ∀ c ∈ line, isBreak c = false)
    (rest : Text) : sourceLines (line ++ '\n' :: rest) = line :: sourceLines rest := by
  induction line with
  | nil =>
      rw [List.nil_append, sourceLines_cons (by simp)]
      rfl
  | cons c line ih =>
      obtain ⟨first, later⟩ := List.forall_mem_cons.1 clear
      have plain := (isBreak_eq_false_iff c).1 first
      rw [List.cons_append, sourceLines_cons fun both => plain.1 both.1, if_neg (by simp [first]),
        ih later]
      rfl

theorem sourceLines_flatMap {lines : List Text}
    (clear : ∀ line ∈ lines, ∀ c ∈ line, isBreak c = false) :
    sourceLines (lines.flatMap (· ++ ['\n'])) = lines := by
  induction lines with
  | nil => rfl
  | cons line lines ih =>
      obtain ⟨first, later⟩ := List.forall_mem_cons.1 clear
      rw [List.flatMap_cons, List.append_assoc, List.singleton_append,
        sourceLines_append_lineFeed first, ih later]

/-! ### Unified breaks -/

theorem carriageReturn_notMem_unifyBreaks (t : Text) : '\r' ∉ unifyBreaks t := by
  fun_induction unifyBreaks t with
  | case1 => exact List.not_mem_nil
  | case2 rest ih => simp [ih]
  | case3 c rest _ ih =>
      split
      · simp [ih]
      · next other => simp [ih, Ne.symm other]

/-- Unifying the breaks changes no line. -/
theorem sourceLines_unifyBreaks (t : Text) : sourceLines (unifyBreaks t) = sourceLines t := by
  fun_induction unifyBreaks t with
  | case1 => rfl
  | case2 rest ih =>
      rw [sourceLines_cons (by simp), ih, sourceLines_pair]
      rfl
  | case3 c rest other ih =>
      rw [sourceLines_cons (single_of_not_pair other)]
      by_cases ret : c = '\r'
      · rw [if_pos ret, sourceLines_cons (by simp), ih, ret]
        rfl
      · rw [if_neg ret, sourceLines_cons (by simp [ret]), ih]

theorem join_nil_cons {lines : List Text} (ne : lines ≠ []) (separator : Text) :
    join separator ([] :: lines) = separator ++ join separator lines := by
  obtain ⟨line, lines, rfl⟩ := List.exists_cons_of_ne_nil ne
  rw [join, List.intercalate_cons_cons]
  rfl

theorem join_consToFirst (separator : Text) (c : Char) (lines : List Text) :
    join separator (consToFirst c lines) = c :: join separator lines := by
  cases lines with
  | nil => simp [consToFirst, join, List.intercalate_singleton, List.intercalate_nil]
  | cons line lines => simp [consToFirst, join, List.intercalate_cons_cons_left]

theorem withoutFinalLineFeed_cons {t : Text} (c : Char) (ne : t ≠ []) :
    withoutFinalLineFeed (c :: t) = c :: withoutFinalLineFeed t := by
  obtain ⟨d, t, rfl⟩ := List.exists_cons_of_ne_nil ne
  simp only [withoutFinalLineFeed, List.getLast?_cons_cons, List.dropLast_cons_cons]
  split <;> rfl

/-- The lines give the text back, if its breaks are line feeds. -/
theorem join_sourceLines {t : Text} (unified : '\r' ∉ t) :
    join ['\n'] (sourceLines t) = withoutFinalLineFeed t := by
  induction t with
  | nil => rfl
  | cons c t ih =>
      obtain ⟨first, later⟩ := not_or.1 (mt List.mem_cons.2 unified)
      have feed : isBreak c = true ↔ c = '\n' := by simp [isBreak, Ne.symm first]
      rw [sourceLines_cons fun both => first both.1.symm]
      by_cases nil : t = []
      · rw [nil]
        by_cases brk : c = '\n'
        · rw [brk]
          rfl
        · rw [if_neg (mt feed.1 brk), join_consToFirst]
          simp [withoutFinalLineFeed, brk, join, List.intercalate_nil]
      · rw [withoutFinalLineFeed_cons c nil, ← ih later]
        by_cases brk : c = '\n'
        · rw [if_pos (feed.2 brk), join_nil_cons (sourceLines_ne_nil nil), brk]
          rfl
        · rw [if_neg (mt feed.1 brk), join_consToFirst]

/-! ### Lines by the places where they start -/

theorem endsBreakAt_cons_succ (c : Char) (t : Text) (i : Nat) :
    EndsBreakAt (c :: t) (i + 1) ↔ EndsBreakAt t i := by
  simp only [EndsBreakAt, List.getElem?_cons_succ]

theorem endsBreakAt_zero_iff (c : Char) (t : Text) :
    EndsBreakAt (c :: t) 0 ↔ isBreak c = true ∧ ¬ (c = '\r' ∧ t.head? = some '\n') := by
  rw [EndsBreakAt, List.getElem?_cons_zero, List.getElem?_cons_succ, ← List.head?_eq_getElem?,
    isBreak_eq_true_iff]
  grind

/-- One line starts at the start, and the others behind breaks. -/
theorem lineStarts_eq_cons (c : Char) (t : Text) : lineStarts (c :: t) =
    0 :: ((List.range t.length).filter (EndsBreakAt (c :: t) ·)).map (· + 1) := by
  have first : decide (StartsLineAt (c :: t) 0) = true := decide_eq_true trivial
  rw [lineStarts, List.length_cons, List.range_succ_eq_map, List.filter_cons, if_pos first,
    List.filter_map]
  rfl

theorem lineStarts_cons (c : Char) (t : Text) : lineStarts (c :: t) =
    0 :: (if EndsBreakAt (c :: t) 0 then lineStarts t else (lineStarts t).tail).map (· + 1) := by
  rw [lineStarts_eq_cons]
  congr 2
  cases t with
  | nil => split <;> rfl
  | cons d t =>
      rw [lineStarts_eq_cons, List.length_cons, List.range_succ_eq_map, List.filter_cons,
        List.filter_map]
      simp only [Function.comp_def, Nat.succ_eq_add_one, endsBreakAt_cons_succ, List.tail_cons,
        decide_eq_true_eq]

theorem lineFrom_zero (c : Char) (t : Text) :
    lineFrom (c :: t) 0 = if isBreak c then [] else c :: lineFrom t 0 := by
  rw [lineFrom, List.drop_zero, List.takeWhile_cons]
  cases isBreak c <;> rfl

theorem map_lineFrom_lineStarts_cons (c : Char) (t : Text) :
    (lineStarts (c :: t)).map (lineFrom (c :: t)) = lineFrom (c :: t) 0 ::
      if EndsBreakAt (c :: t) 0 then (lineStarts t).map (lineFrom t)
      else ((lineStarts t).map (lineFrom t)).tail := by
  rw [lineStarts_cons, List.map_cons, List.map_map]
  congr 1
  split
  · rfl
  · rw [List.map_tail]
    rfl

/-- The lines are what stands between the places where lines start and the next breaks. -/
theorem sourceLines_eq_map_lineStarts (t : Text) :
    sourceLines t = (lineStarts t).map (lineFrom t) := by
  fun_induction unifyBreaks t with
  | case1 => rfl
  | case2 rest ih =>
      have inside : ¬ EndsBreakAt ('\r' :: '\n' :: rest) 0 := by simp [endsBreakAt_zero_iff]
      have behind : EndsBreakAt ('\n' :: rest) 0 := by simp [endsBreakAt_zero_iff, isBreak]
      rw [sourceLines_pair, ih, map_lineFrom_lineStarts_cons, if_neg inside,
        map_lineFrom_lineStarts_cons, if_pos behind]
      rfl
  | case3 c rest other ih =>
      have single := single_of_not_pair other
      have ends := endsBreakAt_zero_iff c rest
      rw [sourceLines_cons single, map_lineFrom_lineStarts_cons, lineFrom_zero, ih]
      by_cases brk : isBreak c = true
      · rw [if_pos brk, if_pos brk, if_pos (ends.2 ⟨brk, single⟩)]
      · rw [if_neg brk, if_neg brk, if_neg fun here => brk (ends.1 here).1]
        cases rest with
        | nil => rfl
        | cons d rest =>
            rw [map_lineFrom_lineStarts_cons]
            rfl

theorem endsInBreak_cons_iff (c : Char) (t : Text) :
    EndsInBreak (c :: t) ↔ EndsBreakAt (c :: t) t.length := by
  have last : (c :: t)[t.length]? = (c :: t).getLast? := by simp [List.getLast?_eq_getElem?]
  have behind : (c :: t)[t.length + 1]? = none := by simp
  rw [EndsBreakAt, last, behind, EndsInBreak]
  simp [isBreak, Option.mem_def, or_comm, List.getLast?_cons]

/-- A line starts behind every break but one at the end, and one starts at the start. -/
theorem length_lineStarts (t : Text) :
    (lineStarts t).length = breakCount t + if t ≠ [] ∧ ¬ EndsInBreak t then 1 else 0 := by
  cases t with
  | nil => rfl
  | cons c t =>
      have last := endsInBreak_cons_iff c t
      rw [lineStarts_eq_cons, List.length_cons, List.length_map, ← List.countP_eq_length_filter,
        breakCount, List.length_cons, List.range_succ, List.countP_append, List.countP_singleton]
      by_cases ends : EndsInBreak (c :: t)
      · simp [ends, last.1 ends]
      · simp [ends, mt last.2 ends]

end Text

theorem SourceFile.read_of_readBytes {ws : Workspace} {root : Path} {path : Text}
    {content : Bytes} {t : Text}
    (bytes : ws.readBytes (root.child (RepositoryPath.normalize path)) = .ok content)
    (decoded : Utf8.decode content = .ok t) :
    read ws root path = .ok ⟨RepositoryPath.normalize path, Text.sourceLines t⟩ := by
  simp only [read, Workspace.readText, bytes, decoded, bind, Except.bind, pure, Except.pure,
    Text.sourceLines_unifyBreaks]

/--
No line holds a break.  Unifying the breaks changes no line, so a file read with its breaks unified
has the lines of its text.  The lines joined by line feeds are the unified text without its final
line feed, and there is one for each break and one for what stands behind the last break.  A line
starts at the start and behind each break that is not at the end, and nowhere else.
-/
theorem sourceLines_by_breaks (t : Text) :
    (∀ line ∈ Text.sourceLines t, '\r' ∉ line ∧ '\n' ∉ line) ∧
    Text.sourceLines (Text.unifyBreaks t) = Text.sourceLines t ∧
    (∀ ws root path content,
      Workspace.readBytes ws (root.child (RepositoryPath.normalize path)) = .ok content →
      Utf8.decode content = .ok t →
        SourceFile.read ws root path =
          .ok ⟨RepositoryPath.normalize path, Text.sourceLines t⟩) ∧
    Text.join ['\n'] (Text.sourceLines t) = Text.withoutFinalLineFeed (Text.unifyBreaks t) ∧
    (Text.sourceLines t).length =
      Text.breakCount t + (if t ≠ [] ∧ ¬ Text.EndsInBreak t then 1 else 0) ∧
    Text.sourceLines t = (Text.lineStarts t).map (Text.lineFrom t) := by
  have starts := Text.sourceLines_eq_map_lineStarts t
  have unified := Text.sourceLines_unifyBreaks t
  refine ⟨?_, unified, ?_, ?_, ?_, starts⟩
  · intro line mem
    have plain (c : Char) (inside : c ∈ line) := Text.isBreak_of_mem_sourceLines mem inside
    exact ⟨fun ret => absurd (plain _ ret) (by decide),
      fun feed => absurd (plain _ feed) (by decide)⟩
  · intro ws root path content bytes decoded
    exact SourceFile.read_of_readBytes bytes decoded
  · rw [← unified]
    exact Text.join_sourceLines (Text.carriageReturn_notMem_unifyBreaks t)
  · rw [starts, List.length_map, Text.length_lineStarts]

/-- A text with every kind of break, and with characters that end a line elsewhere. -/
def Sample.mixedBreaks : Text := "a\r\n\n\x0cb\r\u2028c\r\n"

open Sample in
theorem sourceLines_by_breaks_of_mixed :
    Text.sourceLines mixedBreaks = ["a".toList, [], "\x0cb".toList, "\u2028c".toList] ∧
    ('\r' ∉ "\x0cb".toList ∧ '\n' ∉ "\x0cb".toList) ∧
    SourceFile.read ⟨.folder "main" (.file "A.kt" (Utf8.encode mixedBreaks) .empty) .empty, []⟩
        .here "./main/A.kt" = .ok ⟨"main/A.kt", Text.sourceLines mixedBreaks⟩ := by
  have lines : Text.sourceLines mixedBreaks =
      ["a".toList, [], "\x0cb".toList, "\u2028c".toList] := by decide
  obtain ⟨clear, _, read, _⟩ := sourceLines_by_breaks mixedBreaks
  refine ⟨lines, clear _ (by rw [lines]; decide), ?_⟩
  exact read _ .here "./main/A.kt" (Utf8.encode mixedBreaks) rfl (Utf8.decode_encode _)

end FileCoverage

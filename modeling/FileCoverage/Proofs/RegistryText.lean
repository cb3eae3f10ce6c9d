import FileCoverage.Exemption.TextForm
import FileCoverage.Proofs.JsonRoundTrip
import FileCoverage.Proofs.SourceLines

/-!
# Registries are told apart by their text

The text of a registry is a block of lines for each entry, one after the other.  A path stands on
one line, whatever its characters are, and that line is no other line of a block.  So a block says
which entry it is of and where it ends, and the blocks of a text are those of one list of entries
only.

A line ends at a line feed or a carriage return, as in a source file.  Of the characters that end a
line elsewhere the next-line character and the separators U+2028 and U+2029 may stand inside a path.
-/

namespace FileCoverage

namespace Json

theorem Reads.unique {α : Type} {s rest rest' : Text} {reading : Reading α s} {a b : α}
    (first : Reads reading a rest) (second : Reads reading b rest') : a = b := by
  obtain ⟨_, _, read⟩ := first
  obtain ⟨_, _, read'⟩ := second
  exact congrArg Prod.fst (Except.ok.inj (read.symm.trans read'))

/-- What is read back from a string tells it from every other one. -/
theorem quoted_injective : Function.Injective quoted := by
  intro s t eq
  have first := reads_value_string s []
  rw [eq] at first
  have same := Value.string.inj (first.unique (reads_value_string t []))
  rw [← Symbols.toText_ofText s, same, Symbols.toText_ofText]

end Json

namespace Exemption

/-! ### The lines of a block -/

def opener : Text := listKey ++ " \x7b"

def closer : Text := ['\x7d']

def pathLine (path : Text) : Text := "  " ++ pathKey ++ ": " ++ Json.quoted path

def flagLines (e : Exemption) : List Text := e.flagKeys.map flagLine

/-- The lines that a block may hold beside that of its path. -/
def fixedLines : List Text :=
  [opener, flagLine testNotRequiredKey, flagLine incompatibleKey, closer]

theorem blockLines_eq (path : Text) (e : Exemption) :
    blockLines path e = opener :: pathLine path :: (e.flagLines ++ [closer]) := rfl

theorem pathLine_injective : Function.Injective pathLine := by
  intro path path' eq
  exact Json.quoted_injective (List.append_cancel_left eq)

theorem pathLine_ne_of_mem_fixedLines {line : Text} (mem : line ∈ fixedLines) (path : Text) :
    pathLine path ≠ line := by
  have third : (pathLine path)[2]? = some 'e' := rfl
  have others : ∀ l ∈ fixedLines, l[2]? ≠ some 'e' := by decide
  rintro rfl
  exact others _ mem third

theorem flagLines_injective : Function.Injective flagLines := by
  have all : ∀ a b a' b' : Bool,
      flagLines ⟨a, b⟩ = flagLines ⟨a', b'⟩ → a = a' ∧ b = b' := by decide
  rintro ⟨a, b⟩ ⟨a', b'⟩ eq
  obtain ⟨rfl, rfl⟩ := all a b a' b' eq
  rfl

theorem mem_fixedLines_of_mem_flagLines {e : Exemption} {line : Text} (mem : line ∈ e.flagLines) :
    line ∈ fixedLines ∧ line ≠ closer := by
  have all : ∀ a b : Bool, ∀ line ∈ flagLines ⟨a, b⟩, line ∈ fixedLines ∧ line ≠ closer := by
    decide
  exact all e.1 e.2 line mem

theorem mem_blockLines {path line : Text} {e : Exemption} (mem : line ∈ blockLines path e) :
    line = pathLine path ∨ line ∈ fixedLines := by
  rw [blockLines_eq, List.mem_cons, List.mem_cons, List.mem_append, List.mem_singleton] at mem
  rcases mem with rfl | rfl | flag | rfl
  · exact .inr (by decide)
  · exact .inl rfl
  · exact .inr (mem_fixedLines_of_mem_flagLines flag).1
  · exact .inr (by decide)

theorem isBreak_of_mem_pathLine {path : Text} {c : Char} (inside : c ∈ pathLine path) :
    Text.isBreak c = false := by
  rcases List.mem_append.1 inside with before | here
  · exact Json.of_mem_of_all (p := fun c => Text.isBreak c = false) (by decide) before
  · have visible := Json.visible_of_mem_quoted here
    rw [Text.isBreak_eq_false_iff]
    constructor <;> rintro rfl <;> exact absurd visible (by decide)

theorem isBreak_of_mem_blockLines {path line : Text} {e : Exemption}
    (mem : line ∈ blockLines path e) {c : Char} (inside : c ∈ line) : Text.isBreak c = false := by
  rcases mem_blockLines mem with rfl | fixed
  · exact isBreak_of_mem_pathLine inside
  · have clear : ∀ l ∈ fixedLines, l.all (fun c => Text.isBreak c = false) = true := by decide
    exact Json.of_mem_of_all (clear line fixed) inside

/-- The line of the path is none of the others, so these are counted without it. -/
theorem count_blockLines {line : Text} (fixed : line ∈ fixedLines) (path : Text) (e : Exemption) :
    (blockLines path e).count line = (opener :: (e.flagLines ++ [closer])).count line := by
  rw [blockLines_eq, List.count_cons,
    List.count_cons_of_ne (pathLine_ne_of_mem_fixedLines fixed path), ← List.count_cons]

theorem count_pathLine_blockLines (path path' : Text) (e : Exemption) :
    (blockLines path' e).count (pathLine path) = [path'].count path := by
  have other : ∀ line ∈ fixedLines, line ≠ pathLine path := fun line fixed =>
    (pathLine_ne_of_mem_fixedLines fixed path).symm
  have none : pathLine path ∉ e.flagLines ++ [closer] := by
    rw [List.mem_append, List.mem_singleton, not_or]
    exact ⟨fun flag => other _ (mem_fixedLines_of_mem_flagLines flag).1 rfl,
      (other closer (by decide)).symm⟩
  rw [blockLines_eq, List.count_cons_of_ne (other opener (by decide)), List.count_cons,
    List.count_eq_zero.2 none, List.count_singleton, Nat.zero_add]
  simp only [beq_iff_eq, pathLine_injective.eq_iff]

/-! ### Blocks one after the other -/

def linesOf (entries : List (Text × Exemption)) : List Text :=
  entries.flatMap fun (path, e) => blockLines path e

/-- A block tells the entry it is of, and where it ends. -/
theorem eq_of_blockLines_append_eq {path path' : Text} {e e' : Exemption} {rest rest' : List Text}
    (eq : blockLines path e ++ rest = blockLines path' e' ++ rest') :
    path = path' ∧ e = e' ∧ rest = rest' := by
  -- The lines of the flags are those in front of the first closing brace.
  have flags (e : Exemption) (rest : List Text) :
      (e.flagLines ++ closer :: rest).takeWhile (· ≠ closer) = e.flagLines := by
    rw [List.takeWhile_append_of_pos, List.takeWhile_cons_of_neg (by simp), List.append_nil]
    exact fun line mem => decide_eq_true (mem_fixedLines_of_mem_flagLines mem).2
  rw [blockLines_eq, blockLines_eq] at eq
  simp only [List.cons_append, List.append_assoc, List.nil_append] at eq
  obtain ⟨-, eq⟩ := List.cons.inj eq
  obtain ⟨same, eq⟩ := List.cons.inj eq
  have sameFlags : e.flagLines = e'.flagLines := by rw [← flags e rest, eq, flags e' rest']
  rw [sameFlags] at eq
  exact ⟨pathLine_injective same, flagLines_injective sameFlags,
    (List.cons.inj (List.append_cancel_left eq)).2⟩

theorem linesOf_injective : Function.Injective linesOf := by
  intro entries entries' eq
  induction entries generalizing entries' with
  | nil =>
      cases entries' with
      | nil => rfl
      | cons entry' entries' => cases eq
  | cons entry entries ih =>
      cases entries' with
      | nil => cases eq
      | cons entry' entries' =>
          obtain ⟨path, e, rest⟩ := eq_of_blockLines_append_eq eq
          rw [Prod.ext path e, ih rest]

/-- A line that the blocks of some entries have once, and no other, is there once for each. -/
theorem count_linesOf {line : Text} (fixed : line ∈ fixedLines) (has : Exemption → Bool)
    (each : ∀ a b : Bool, (opener :: (flagLines ⟨a, b⟩ ++ [closer])).count line =
      if has ⟨a, b⟩ then 1 else 0) (entries : List (Text × Exemption)) :
    (linesOf entries).count line = entries.countP fun entry => has entry.2 := by
  induction entries with
  | nil => rfl
  | cons entry entries ih =>
      change (blockLines entry.1 entry.2 ++ linesOf entries).count line = _
      rw [List.count_append, count_blockLines fixed, ih, List.countP_cons, Nat.add_comm]
      exact congrArg _ (each entry.2.1 entry.2.2)

theorem count_pathLine_linesOf (path : Text) (entries : List (Text × Exemption)) :
    (linesOf entries).count (pathLine path) = (entries.map (·.1)).count path := by
  induction entries with
  | nil => rfl
  | cons entry entries ih =>
      change (blockLines entry.1 entry.2 ++ linesOf entries).count (pathLine path) = _
      rw [List.count_append, count_pathLine_blockLines, ih, ← List.count_append]
      rfl

end Exemption

namespace Registry

open Exemption

theorem sourceLines_toText (r : Registry) : Text.sourceLines r.toText = linesOf r.entries := by
  apply Text.sourceLines_flatMap
  intro line mem c inside
  obtain ⟨entry, _, here⟩ := List.mem_flatMap.1 mem
  exact isBreak_of_mem_blockLines here inside

/--
Registries with the same text have the same entries, in the same order and with the same flags.
Each line of the text opens a block, closes one, holds the path of an entry or sets a flag, and ends
with a line feed.  As many lines open a block, and as many close one, as there are entries; each
flag is set by as many lines as entries have it.  A line ends at a line feed, a carriage return or
both, and at no other character: a path may hold U+0085, U+2028 or U+2029 inside its line.
-/
theorem toText_unambiguous :
    (∀ r s : Registry, r.toText = s.toText → r.entries = s.entries) ∧
    ∀ r : Registry,
      r.toText = (Text.sourceLines r.toText).flatMap (· ++ ['\n']) ∧
      (∀ line ∈ Text.sourceLines r.toText,
        line = opener ∨ (∃ path ∈ r.paths, line = pathLine path) ∨
          line = flagLine testNotRequiredKey ∨ line = flagLine incompatibleKey ∨ line = closer) ∧
      (∀ path, (Text.sourceLines r.toText).count (pathLine path) = r.paths.count path) ∧
      (Text.sourceLines r.toText).count opener = r.size ∧
      (Text.sourceLines r.toText).count closer = r.size ∧
      (Text.sourceLines r.toText).count (flagLine testNotRequiredKey) =
        r.entries.countP (·.2.testFileNotRequired) ∧
      (Text.sourceLines r.toText).count (flagLine incompatibleKey) =
        r.entries.countP (·.2.incompatibleWithCoverage) := by
  constructor
  · intro r s same
    apply linesOf_injective
    rw [← sourceLines_toText, same, sourceLines_toText]
  · intro r
    rw [sourceLines_toText]
    refine ⟨rfl, ?_, fun path => count_pathLine_linesOf path r.entries, ?_, ?_, ?_, ?_⟩
    · intro line mem
      obtain ⟨entry, listed, here⟩ := List.mem_flatMap.1 mem
      rcases mem_blockLines here with rfl | fixed
      · exact .inr (.inl ⟨entry.1, List.mem_map.2 ⟨entry, listed, rfl⟩, rfl⟩)
      · simp only [fixedLines, List.mem_cons, List.not_mem_nil, or_false] at fixed
        rcases fixed with rfl | rfl | rfl | rfl <;> simp
    · rw [count_linesOf (by decide) (fun _ => true) (by decide), List.countP_true]
      rfl
    · rw [count_linesOf (by decide) (fun _ => true) (by decide), List.countP_true]
      rfl
    · exact count_linesOf (by decide) (·.testFileNotRequired) (by decide) r.entries
    · exact count_linesOf (by decide) (·.incompatibleWithCoverage) (by decide) r.entries

end Registry

/-- A path that holds what the lines of a block hold. -/
def Sample.forgedPath : Text := "a\"\n  test_file_not_required: true\r\n\x7d\u2028\\"

def Sample.forged : Registry := .ofEntries [(forgedPath, ⟨false, true⟩)]

open Sample Exemption in
/-- An entry that is put twice is one entry, and its path sets no flag. -/
theorem toText_unambiguous_of_forged_path :
    (Registry.ofEntries [(forgedPath, ⟨true, false⟩), (forgedPath, ⟨false, true⟩)]).entries =
      forged.entries ∧
    (∃ line ∈ Text.sourceLines forged.toText, line = opener ∨
      (∃ path ∈ forged.paths, line = pathLine path) ∨
        line = flagLine testNotRequiredKey ∨ line = flagLine incompatibleKey ∨ line = closer) ∧
    (Text.sourceLines forged.toText).length = 4 ∧
    (Text.sourceLines forged.toText).count (flagLine testNotRequiredKey) = 0 := by
  obtain ⟨injective, lines⟩ := Registry.toText_unambiguous
  obtain ⟨-, kinds, -, -, -, flags, -⟩ := lines forged
  have listed : Text.sourceLines forged.toText =
      [opener, pathLine forgedPath, flagLine incompatibleKey, closer] := by
    rw [Registry.sourceLines_toText]
    rfl
  have here : pathLine forgedPath ∈ Text.sourceLines forged.toText := by
    rw [listed]
    simp
  exact ⟨injective _ _ rfl, ⟨_, here, kinds _ here⟩, by rw [listed]; rfl, flags⟩

end FileCoverage

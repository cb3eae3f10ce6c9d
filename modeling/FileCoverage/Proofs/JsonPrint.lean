import FileCoverage.Json.Printer
import FileCoverage.Json.Scan
import FileCoverage.Proofs.Pieces

/-!
# Printed JSON

How values are printed that hold no number, whose strings are texts and in whose objects the names
are distinct.  A character of a string is written by a letter, by a code of four digits or as
itself.  A print begins with the mark of its kind of value, and of the control characters it holds
line feeds only.
-/

namespace FileCoverage.Json

variable {t : Text}

/-! ### Characters of strings -/

theorem mem_of_escapeLetter?_eq_some {c letter : Char} (h : escapeLetter? c = some letter) :
    (letter, c) ∈ escapeLetters := by
  obtain ⟨⟨letter', c'⟩, found, rfl⟩ := Option.map_eq_some_iff.1 h
  obtain rfl : c' = c := by simpa using List.find?_some found
  exact List.mem_of_find?_eq_some found

theorem letterMeaning?_of_mem {letter c : Char} (h : (letter, c) ∈ escapeLetters) :
    letterMeaning? letter = some c := by
  have all : ∀ pair ∈ escapeLetters, letterMeaning? pair.1 = some pair.2 := by decide
  exact all _ h

theorem hex_of_control {n : Nat} (control : n < 0x20) :
    Text.hex 4 n = ['0', '0', Nat.digitChar (n / 16), Nat.digitChar (n % 16)] ∧
      codeUnit? '0' '0' (Nat.digitChar (n / 16)) (Nat.digitChar (n % 16)) = some n := by
  have all : ∀ n < 0x20,
      Text.hex 4 n = ['0', '0', Nat.digitChar (n / 16), Nat.digitChar (n % 16)] ∧
        codeUnit? '0' '0' (Nat.digitChar (n / 16)) (Nat.digitChar (n % 16)) = some n := by decide
  exact all n control

/-- A character is written by a letter, by its code or as itself. -/
theorem escaped_cases (c : Char) :
    (∃ letter, escaped c = ['\\', letter] ∧ letterMeaning? letter = some c) ∨
      (escaped c = "\\u" ++ Text.hex 4 c.toNat ∧ c.toNat < 0x20) ∨
      (escaped c = [c] ∧ c ≠ '"' ∧ c ≠ '\\' ∧ ¬ c.toNat < 0x20) := by
  rw [escaped]
  split
  · next special =>
      refine .inl ⟨c, rfl, ?_⟩
      rw [letterMeaning?, if_pos (by simpa only [← or_assoc] using .inl special)]
  next ordinary =>
  rw [not_or] at ordinary
  split
  · next letter found =>
      exact .inl ⟨letter, rfl, letterMeaning?_of_mem (mem_of_escapeLetter?_eq_some found)⟩
  split
  · next control => exact .inr (.inl ⟨rfl, control⟩)
  · next visible => exact .inr (.inr ⟨rfl, ordinary.1, ordinary.2, visible⟩)

theorem quoted_append (t rest : Text) :
    quoted t ++ rest = '"' :: (t.flatMap escaped ++ '"' :: rest) := by
  simp [quoted]

/-! ### Values -/

/-- A value without numbers whose strings are texts, the names in one object being distinct. -/
inductive Value.Textual : Value → Prop
  | null : Textual .null
  | boolean (b : Bool) : Textual (.boolean b)
  | string (t : Text) : Textual (.string (.ofText t))
  | array {items : List Value} (all : ∀ item ∈ items, item.Textual) : Textual (.array items)
  | object {members : Members} (distinct : (KeyedList.keys members).Nodup)
      (named : ∀ member ∈ members, ∃ name, member.1 = .ofText name)
      (all : ∀ member ∈ members, member.2.Textual) : Textual (.object members)

theorem isSpace_of_mem_lineBreak {c : Char} {depth : Nat} (h : c ∈ lineBreak depth) :
    isSpace c = true := by
  rcases List.mem_cons.1 h with rfl | blank
  · rfl
  · rw [List.eq_of_mem_replicate blank]
    rfl

theorem block_append {opener closer : Char} {depth : Nat} {items : List Text} (filled : items ≠ [])
    (rest : Text) :
    block opener closer depth items ++ rest =
      opener :: (lineBreak (depth + 1) ++ (Text.join (',' :: lineBreak (depth + 1)) items ++
        (lineBreak depth ++ closer :: rest))) := by
  simp [block, filled]

theorem exists_block_eq_cons (opener closer : Char) (depth : Nat) (items : List Text) :
    ∃ t, block opener closer depth items = opener :: t := by
  rw [block]
  split
  · exact ⟨_, rfl⟩
  · exact ⟨_, rfl⟩

/-- The print of a value begins with no blank, no end of an array and no mark. -/
theorem exists_printAt_eq_cons {v : Value} (textual : v.Textual) (depth : Nat) :
    ∃ c t, printAt depth v = c :: t ∧ isSpace c = false ∧ c ≠ ']' ∧ c ≠ '\ufeff' := by
  cases textual with
  | null => exact ⟨'n', _, rfl, rfl, by decide⟩
  | boolean b => cases b <;> exact ⟨_, _, rfl, rfl, by decide⟩
  | string t => exact ⟨'"', t.flatMap escaped ++ ['"'], by simp [printAt, quoted], rfl, by decide⟩
  | array _ =>
      obtain ⟨t, is⟩ := exists_block_eq_cons '[' ']' depth (printItems depth _)
      exact ⟨'[', t, by rw [printAt, is], rfl, by decide⟩
  | object _ _ _ =>
      obtain ⟨t, is⟩ := exists_block_eq_cons '\x7b' '\x7d' depth (printMembers depth _)
      exact ⟨'\x7b', t, by rw [printAt, is], rfl, by decide⟩

theorem exists_join_append_eq_cons {part : Text} {c : Char} (begins : part = c :: t)
    (separator : Text) (parts : List Text) (rest : Text) :
    ∃ u, Text.join separator (part :: parts) ++ rest = c :: u := by
  rw [begins]
  cases parts with
  | nil => exact ⟨t ++ rest, by rw [Text.join, List.intercalate_singleton, List.cons_append]⟩
  | cons next parts =>
      rw [Text.join, List.intercalate_cons_cons]
      exact ⟨_, rfl⟩

theorem printItems_eq_map (depth : Nat) (items : List Value) :
    printItems depth items = items.map (printAt (depth + 1)) := by
  induction items with
  | nil => rfl
  | cons item items ih => rw [printItems, ih, List.map_cons]

/-- A member as it stands in the print of its object. -/
def memberText (depth : Nat) (name : Text) (v : Value) : Text :=
  quoted name ++ ':' :: ' ' :: printAt (depth + 1) v

theorem printMembers_cons (depth : Nat) (name : Text) (v : Value) (more : Members) :
    printMembers depth ((.ofText name, v) :: more) =
      memberText depth name v :: printMembers depth more := by
  simp [printMembers, memberText]

theorem exists_member_eq {member : Symbols × Value} (named : ∃ name, member.1 = .ofText name) :
    ∃ name v, member = (.ofText name, v) := by
  obtain ⟨name, is⟩ := named
  exact ⟨name, member.2, Prod.ext is rfl⟩

theorem memberText_eq_cons (depth : Nat) (name : Text) (v : Value) :
    memberText depth name v =
      '"' :: (name.flatMap escaped ++ '"' :: ':' :: ' ' :: printAt (depth + 1) v) :=
  quoted_append name _

theorem exists_of_mem_printMembers {depth : Nat} {members : Members} {t : Text}
    (named : ∀ m ∈ members, ∃ name, m.1 = .ofText name) (h : t ∈ printMembers depth members) :
    ∃ name, ∃ m ∈ members, t = memberText depth name m.2 := by
  induction members with
  | nil => simp [printMembers] at h
  | cons member members ih =>
      obtain ⟨name, v, rfl⟩ := exists_member_eq (named member List.mem_cons_self)
      rw [printMembers_cons, List.mem_cons] at h
      rcases h with rfl | later
      · exact ⟨name, _, List.mem_cons_self, rfl⟩
      · obtain ⟨name, m, mem, is⟩ := ih (fun m h => named m (List.mem_cons_of_mem _ h)) later
        exact ⟨name, m, List.mem_cons_of_mem _ mem, is⟩

/-! ### Printed characters -/

/-- A character that is a line feed or no control character below the blank. -/
def IsPrinted (c : Char) : Prop := c = '\n' ∨ ' ' ≤ c

instance : DecidablePred IsPrinted := fun c => inferInstanceAs (Decidable (c = '\n' ∨ ' ' ≤ c))

/-- What is found by looking at each character of a text, and not at all characters there are. -/
theorem of_mem_of_all {p : Char → Prop} [DecidablePred p] {t : Text} (all : t.all (p ·) = true)
    {c : Char} (h : c ∈ t) : p c :=
  of_decide_eq_true (List.all_eq_true.1 all c h)

theorem visible_of_letterMeaning? {letter c : Char} (meant : letterMeaning? letter = some c) :
    ' ' ≤ letter := by
  have letters : letter ∈ ['"', '\\', '/', 'b', 'f', 'n', 'r', 't'] := by grind [letterMeaning?]
  exact of_mem_of_all (by decide) letters

theorem visible_of_mem_escaped {c d : Char} (h : d ∈ escaped c) : ' ' ≤ d := by
  rcases escaped_cases c with ⟨letter, is, meant⟩ | ⟨is, control⟩ | ⟨is, _, _, visible⟩
  · rw [is, List.mem_cons, List.mem_singleton] at h
    rcases h with rfl | rfl
    · decide
    · exact visible_of_letterMeaning? meant
  · have digits : ∀ n < 0x20, ("\\u" ++ Text.hex 4 n).all (' ' ≤ ·) = true := by decide
    rw [is] at h
    exact of_mem_of_all (digits c.toNat control) h
  · rw [is, List.mem_singleton] at h
    exact Char.le_def.2 (h ▸ UInt32.le_iff_toNat_le.2 (Nat.not_lt.1 visible))

/-- A string is written without control characters below the blank. -/
theorem visible_of_mem_quoted {t : Text} {c : Char} (h : c ∈ quoted t) : ' ' ≤ c := by
  simp only [quoted, List.cons_append, List.mem_cons, List.mem_append, List.mem_flatMap,
    List.not_mem_nil, or_false] at h
  rcases h with rfl | ⟨d, _, mem⟩ | rfl
  · decide
  · exact visible_of_mem_escaped mem
  · decide

theorem isPrinted_of_mem_quoted {t : Text} {c : Char} (h : c ∈ quoted t) : IsPrinted c :=
  .inr (visible_of_mem_quoted h)

theorem isPrinted_of_mem_lineBreak {depth : Nat} {c : Char} (h : c ∈ lineBreak depth) :
    IsPrinted c := by
  rcases List.mem_cons.1 h with rfl | blank
  · exact .inl rfl
  · rw [List.eq_of_mem_replicate blank]
    decide

theorem isPrinted_of_mem_block {opener closer : Char} {depth : Nat} {items : List Text}
    (opens : IsPrinted opener) (closes : IsPrinted closer)
    (all : ∀ item ∈ items, ∀ c ∈ item, IsPrinted c) {c : Char}
    (h : c ∈ block opener closer depth items) : IsPrinted c := by
  by_cases none : items = []
  · rw [block, if_pos none, List.mem_cons, List.mem_singleton] at h
    rcases h with rfl | rfl
    · exact opens
    · exact closes
  · rw [← List.append_nil (block opener closer depth items), block_append none, List.mem_cons,
      List.mem_append, List.mem_append, List.mem_append, List.mem_singleton] at h
    rcases h with rfl | blank | inside | blank | rfl
    · exact opens
    · exact isPrinted_of_mem_lineBreak blank
    · rcases Text.mem_join inside with separator | ⟨item, mem, there⟩
      · rcases List.mem_cons.1 separator with rfl | blank
        · decide
        · exact isPrinted_of_mem_lineBreak blank
      · exact all item mem c there
    · exact isPrinted_of_mem_lineBreak blank
    · exact closes

/-- A print holds line feeds, and of the other control characters below the blank none. -/
theorem isPrinted_of_mem_printAt {v : Value} (textual : v.Textual) {depth : Nat} {c : Char}
    (h : c ∈ printAt depth v) : IsPrinted c := by
  induction textual generalizing depth c with
  | null => exact of_mem_of_all (t := "null") (by decide) h
  | boolean b =>
      have all : ∀ b, (printAt 0 (.boolean b)).all (IsPrinted ·) = true := by decide
      exact of_mem_of_all (all b) h
  | string t =>
      rw [printAt, quotedSymbols_ofText] at h
      exact isPrinted_of_mem_quoted h
  | array all ih =>
      rw [printAt] at h
      refine isPrinted_of_mem_block (by decide) (by decide) ?_ h
      intro item printed c there
      rw [printItems_eq_map] at printed
      obtain ⟨v, mem, rfl⟩ := List.mem_map.1 printed
      exact ih v mem there
  | object distinct named all ih =>
      rw [printAt] at h
      refine isPrinted_of_mem_block (by decide) (by decide) ?_ h
      intro t printed c there
      obtain ⟨name, m, mem, rfl⟩ := exists_of_mem_printMembers named printed
      rw [memberText, List.mem_append, List.mem_cons, List.mem_cons] at there
      rcases there with quote | rfl | rfl | inside
      · exact isPrinted_of_mem_quoted quote
      · decide
      · decide
      · exact ih m mem inside

theorem carriageReturn_notMem_print {v : Value} (textual : v.Textual) : '\r' ∉ print v := by
  intro mem
  rcases isPrinted_of_mem_printAt textual mem with same | visible
  · cases same
  · exact absurd visible (by decide)

end FileCoverage.Json

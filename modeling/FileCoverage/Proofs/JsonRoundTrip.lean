import FileCoverage.Json.Reader
import FileCoverage.Proofs.JsonPrint
import FileCoverage.Proofs.KeyedList

/-!
# A printed JSON value is read back

A value is read back from its print if it holds no number, its strings are texts, and the members of
each of its objects have distinct names.  The reader is followed part by part: what it makes of the
parts of a text decides what it makes of the whole.
-/

namespace FileCoverage.Json

open Text (Rest)

/-- A reading comes to `a` and leaves `rest`. -/
def Reads {α : Type} {s : Text} (reading : Reading α s) (a : α) (rest : Text) : Prop :=
  ∃ after : Rest s, after.1 = rest ∧ reading = .ok (a, after)

variable {opened : Nat} {s t u w : Text}

/-! ### Strings -/

theorem reads_stringFrom_quote : Reads (stringFrom opened ('"' :: s)) [] s :=
  ⟨.tail _ s, rfl, by rw [stringFrom, if_pos rfl]⟩

theorem reads_stringFrom_char {c : Char} {more : Symbols} (unquoted : c ≠ '"') (plain : c ≠ '\\')
    (visible : ¬ c.toNat < 0x20) (others : Reads (stringFrom opened s) more t) :
    Reads (stringFrom opened (c :: s)) (.char c :: more) t := by
  obtain ⟨after, rfl, read⟩ := others
  refine ⟨(Rest.tail c s).trans after, rfl, ?_⟩
  rw [stringFrom, if_neg unquoted, if_neg plain, if_neg visible, read]

theorem reads_stringFrom_escape {symbol : Symbol} {more : Symbols}
    (first : Reads (escape opened s) symbol t) (others : Reads (stringFrom opened t) more u) :
    Reads (stringFrom opened ('\\' :: s)) (symbol :: more) u := by
  obtain ⟨mid, rfl, read⟩ := first
  obtain ⟨after, rfl, readMore⟩ := others
  refine ⟨(Rest.tail '\\' s).trans (mid.trans after), rfl, ?_⟩
  rw [stringFrom, if_neg (by decide), if_pos rfl, read]
  simp only [readMore]

theorem reads_escape_letter {letter c : Char} (meant : letterMeaning? letter = some c) :
    Reads (escape opened (letter :: s)) (.char c) s := by
  have letter_ne : letter ≠ 'u' := by
    rintro rfl
    simp [letterMeaning?] at meant
  refine ⟨.tail letter s, rfl, ?_⟩
  rw [escape, if_neg letter_ne, meant]

theorem reads_escape_code {a b c d e : Char} {n : Nat} (code : codeUnit? a b c d = some n)
    (whole : isHighHalf n = false) :
    Reads (escape opened ('u' :: a :: b :: c :: d :: e :: s)) (.ofCode n) (e :: s) := by
  refine ⟨(Rest.tail 'u' _).trans (afterCode a b c d (e :: s)), rfl, ?_⟩
  rw [escape, if_pos rfl, codeEscape, code]
  simp [whole]

theorem ofCode_toNat (c : Char) : Symbol.ofCode c.toNat = .char c := by
  have valid : c.toNat < 0xd800 ∨ 0xdfff < c.toNat ∧ c.toNat < 0x110000 := c.valid
  rw [Symbol.ofCode, if_neg, Char.ofNat_toNat]
  simp only [isHighHalf, isLowHalf, Bool.or_eq_true, Bool.and_eq_true, decide_eq_true_eq]
  omega

/-- An escaped character is read as that character, in front of what the text goes on with. -/
theorem reads_escaped (c : Char) {more : Symbols} (others : Reads (stringFrom opened s) more t) :
    Reads (stringFrom opened (escaped c ++ s)) (.char c :: more) t := by
  rcases escaped_cases c with ⟨letter, is, meant⟩ | ⟨is, control⟩ | ⟨is, unquoted, plain, visible⟩
  · rw [is]
    exact reads_stringFrom_escape (reads_escape_letter meant) others
  · obtain ⟨digits, code⟩ := hex_of_control control
    rw [is, digits]
    cases s with
    | nil =>
        obtain ⟨_, _, read⟩ := others
        simp [stringFrom] at read
    | cons e s =>
        have whole : isHighHalf c.toNat = false := by
          simp only [isHighHalf, Bool.and_eq_false_iff, decide_eq_false_iff_not]
          omega
        refine reads_stringFrom_escape ?_ others
        rw [← ofCode_toNat]
        exact reads_escape_code code whole
  · rw [is]
    exact reads_stringFrom_char unquoted plain visible others

theorem reads_stringFrom (t rest : Text) :
    Reads (stringFrom opened (t.flatMap escaped ++ '"' :: rest)) (.ofText t) rest := by
  induction t with
  | nil => exact reads_stringFrom_quote
  | cons c t ih =>
      rw [List.flatMap_cons, List.append_assoc]
      exact reads_escaped c ih

theorem reads_string (missing : Problem) (t rest : Text) :
    Reads (string missing (quoted t ++ rest)) (.ofText t) rest := by
  rw [quoted_append]
  obtain ⟨after, left, read⟩ := reads_stringFrom t rest
  refine ⟨(Rest.tail '"' _).trans after, left, ?_⟩
  rw [string, read]

/-! ### Blanks -/

theorem skip_of_not_space {c : Char} (solid : isSpace c = false) : skip (c :: s) = c :: s := by
  rw [skip, List.dropWhile_cons_of_neg (by simp [solid])]

theorem skip_lineBreak (depth : Nat) (s : Text) : skip (lineBreak depth ++ s) = skip s :=
  List.dropWhile_append_of_pos fun _ => isSpace_of_mem_lineBreak

theorem next?_of_not_space {c : Char} (solid : isSpace c = false) (s : Text) :
    next? (c :: s) = some (c, .tail c s) := by
  simp [next?, solid]

theorem next?_append {c : Char} (blank : ∀ d ∈ w, isSpace d = true) (solid : isSpace c = false) :
    ∃ after : Rest (w ++ c :: s), after.1 = s ∧ next? (w ++ c :: s) = some (c, after) := by
  induction w with
  | nil => exact ⟨.tail c s, rfl, next?_of_not_space solid s⟩
  | cons d w ih =>
      obtain ⟨after, left, next⟩ := ih fun e h => blank e (List.mem_cons_of_mem d h)
      rw [List.cons_append]
      refine ⟨(Rest.tail d _).trans after, left, ?_⟩
      rw [next?, if_pos (blank d List.mem_cons_self), next, Option.map_some]

theorem next?_lineBreak {c : Char} (depth : Nat) (s : Text) (solid : isSpace c = false) :
    ∃ after : Rest (lineBreak depth ++ c :: s), after.1 = s ∧
      next? (lineBreak depth ++ c :: s) = some (c, after) :=
  next?_append (fun _ => isSpace_of_mem_lineBreak) solid

theorem closed?_lineBreak {c closer : Char} (depth : Nat) (s : Text) (solid : isSpace c = false)
    (other : c ≠ closer) : closed? closer (lineBreak depth ++ c :: s) = none := by
  obtain ⟨after, _, next⟩ := next?_lineBreak depth s solid
  simp only [closed?, next, if_neg other]

theorem reads_separator_close {closer : Char} (depth : Nat) (s : Text)
    (solid : isSpace closer = false) :
    Reads (separator closer (lineBreak depth ++ closer :: s)) .close s := by
  obtain ⟨after, left, next⟩ := next?_lineBreak depth s solid
  exact ⟨after, left, by simp only [separator, next, if_true]⟩

theorem reads_separator_comma {closer : Char} (s : Text) (other : ',' ≠ closer) :
    Reads (separator closer (',' :: s)) .comma (skip s) := by
  refine ⟨(Rest.tail ',' s).dropWhile isSpace, rfl, ?_⟩
  simp only [separator, next?_of_not_space (c := ',') rfl s, if_neg other, if_true]

theorem reads_colon (s : Text) : Reads (colon (':' :: s)) () (skip s) := by
  refine ⟨(Rest.tail ':' s).dropWhile isSpace, rfl, ?_⟩
  simp only [colon, next?_of_not_space (c := ':') rfl s, if_true]

/-! ### Values -/

theorem reads_memberName (name rest : Text) :
    Reads (memberName (quoted name ++ ':' :: rest)) (.ofText name) (skip rest) := by
  obtain ⟨between, left, read⟩ := reads_string .propertyName name (':' :: rest)
  have colon := reads_colon rest
  rw [← left] at colon
  obtain ⟨after, left', readColon⟩ := colon
  refine ⟨between.trans after, left', ?_⟩
  rw [memberName, read]
  simp only [readColon]

theorem reads_value_string (content rest : Text) :
    Reads (value (quoted content ++ rest)) (.string (.ofText content)) rest := by
  have read := reads_string .value content rest
  rw [quoted_append] at read ⊢
  obtain ⟨after, left, read⟩ := read
  exact ⟨after, left, by rw [value, read]⟩

theorem reads_items_last {item : Value} (first : Reads (value s) item t)
    (ends : Reads (separator ']' t) .close u) : Reads (items s) [item] u := by
  obtain ⟨between, rfl, read⟩ := first
  obtain ⟨after, left, separated⟩ := ends
  refine ⟨between.trans after, left, ?_⟩
  rw [items, read]
  simp only [separated]

theorem reads_items_more {item : Value} {more : List Value} (first : Reads (value s) item t)
    (comma : Reads (separator ']' t) .comma u) (others : Reads (items u) more w) :
    Reads (items s) (item :: more) w := by
  obtain ⟨between, rfl, read⟩ := first
  obtain ⟨next, rfl, separated⟩ := comma
  obtain ⟨after, left, readMore⟩ := others
  refine ⟨between.trans (next.trans after), left, ?_⟩
  rw [items, read]
  simp only [separated, readMore]

theorem reads_members_last {name : Symbols} {v : Value} (named : Reads (memberName s) name t)
    (first : Reads (value t) v u) (ends : Reads (separator '\x7d' u) .close w) :
    Reads (members s) [(name, v)] w := by
  obtain ⟨start, rfl, readName⟩ := named
  obtain ⟨between, rfl, read⟩ := first
  obtain ⟨after, left, separated⟩ := ends
  refine ⟨start.trans (between.trans after), left, ?_⟩
  rw [members, readName]
  simp only [read, separated]

theorem reads_members_more {name : Symbols} {v : Value} {more : Members} {rest : Text}
    (named : Reads (memberName s) name t) (first : Reads (value t) v u)
    (comma : Reads (separator '\x7d' u) .comma w) (others : Reads (members w) more rest) :
    Reads (members s) ((name, v) :: more) rest := by
  obtain ⟨start, rfl, readName⟩ := named
  obtain ⟨between, rfl, read⟩ := first
  obtain ⟨next, rfl, separated⟩ := comma
  obtain ⟨after, left, readMore⟩ := others
  refine ⟨start.trans (between.trans (next.trans after)), left, ?_⟩
  rw [members, readName]
  simp only [read, separated, readMore]

theorem reads_array {content : List Value} (filled : closed? ']' s = none)
    (inside : Reads (items (skip s)) content t) : Reads (value ('[' :: s)) (.array content) t := by
  change Reads (items (beyond '[' s).1) content t at inside
  obtain ⟨after, left, read⟩ := inside
  refine ⟨(beyond '[' s).trans after, left, ?_⟩
  simp only [value, filled, read]

theorem reads_array_nil (s : Text) : Reads (value ('[' :: ']' :: s)) (.array []) s := by
  refine ⟨(Rest.tail '[' (']' :: s)).trans (.tail ']' s), rfl, ?_⟩
  have closes : closed? ']' (']' :: s) = some (.tail ']' s) := by
    simp only [closed?, next?_of_not_space (c := ']') rfl s, if_true]
  simp only [value, closes]

theorem reads_object {content : Members} (filled : closed? '\x7d' s = none)
    (inside : Reads (members (skip s)) content t) :
    Reads (value ('\x7b' :: s)) (.object (KeyedList.ofPairs content)) t := by
  change Reads (members (beyond '\x7b' s).1) content t at inside
  obtain ⟨after, left, read⟩ := inside
  refine ⟨(beyond '\x7b' s).trans after, left, ?_⟩
  simp only [value, filled, read]

theorem reads_object_nil (s : Text) : Reads (value ('\x7b' :: '\x7d' :: s)) (.object []) s := by
  refine ⟨(Rest.tail '\x7b' ('\x7d' :: s)).trans (.tail '\x7d' s), rfl, ?_⟩
  have closes : closed? '\x7d' ('\x7d' :: s) = some (.tail '\x7d' s) := by
    simp only [closed?, next?_of_not_space (c := '\x7d') rfl s, if_true]
  simp only [value, closes]

theorem reads_null (s : Text) : Reads (value ('n' :: 'u' :: 'l' :: 'l' :: s)) .null s := by
  refine ⟨⟨s, by simp only [List.length_cons]; omega, "null", rfl⟩, rfl, ?_⟩
  simp [value, plain, named?, namedValues, after?]

theorem reads_true (s : Text) :
    Reads (value ('t' :: 'r' :: 'u' :: 'e' :: s)) (.boolean true) s := by
  refine ⟨⟨s, by simp only [List.length_cons]; omega, "true", rfl⟩, rfl, ?_⟩
  simp [value, plain, named?, namedValues, after?]

theorem reads_false (s : Text) :
    Reads (value ('f' :: 'a' :: 'l' :: 's' :: 'e' :: s)) (.boolean false) s := by
  refine ⟨⟨s, by simp only [List.length_cons]; omega, "false", rfl⟩, rfl, ?_⟩
  simp [value, plain, named?, namedValues, after?]

/-- A value is read from its print, wherever it stands and whatever comes after it. -/
def Value.ReadsBack (v : Value) : Prop :=
  ∀ depth rest, Reads (value (printAt depth v ++ rest)) v rest

theorem skip_join_append {part : Text} {c : Char} (begins : part = c :: t)
    (solid : isSpace c = false) (separator : Text) (parts : List Text) (rest : Text) :
    skip (Text.join separator (part :: parts) ++ rest) =
      Text.join separator (part :: parts) ++ rest := by
  obtain ⟨u, joined⟩ := exists_join_append_eq_cons begins separator parts rest
  rw [joined, skip_of_not_space solid]

theorem closed?_join {closer : Char} {part : Text} {c : Char} (begins : part = c :: t)
    (solid : isSpace c = false) (other : c ≠ closer) (depth : Nat) (separator : Text)
    (parts : List Text) (rest : Text) :
    closed? closer (lineBreak depth ++ (Text.join separator (part :: parts) ++ rest)) = none := by
  obtain ⟨u, joined⟩ := exists_join_append_eq_cons begins separator parts rest
  rw [joined, closed?_lineBreak depth u solid other]

theorem reads_items_print {item : Value} {more : List Value} (depth : Nat) (rest : Text)
    (textual : ∀ v ∈ item :: more, v.Textual) (back : ∀ v ∈ item :: more, v.ReadsBack) :
    Reads (items (Text.join (',' :: lineBreak (depth + 1)) (printItems depth (item :: more)) ++
      (lineBreak depth ++ ']' :: rest))) (item :: more) rest := by
  induction more generalizing item with
  | nil =>
      rw [printItems, printItems, Text.join, List.intercalate_singleton]
      exact reads_items_last (back item List.mem_cons_self (depth + 1) _)
        (reads_separator_close depth rest rfl)
  | cons next more ih =>
      have others := ih (fun v h => textual v (List.mem_cons_of_mem _ h))
        (fun v h => back v (List.mem_cons_of_mem _ h))
      obtain ⟨c, t, begins, solid, _⟩ :=
        exists_printAt_eq_cons (textual next (by simp)) (depth + 1)
      rw [printItems, printItems, Text.join, List.intercalate_cons_cons, List.append_assoc,
        List.append_assoc, List.cons_append]
      refine reads_items_more (back item List.mem_cons_self (depth + 1) _)
        (reads_separator_comma _ (by decide)) ?_
      rw [skip_lineBreak, ← Text.join, skip_join_append begins solid]
      exact others

theorem skip_space_printAt {v : Value} (textual : v.Textual) (depth : Nat) (rest : Text) :
    skip (' ' :: (printAt depth v ++ rest)) = printAt depth v ++ rest := by
  obtain ⟨c, t, begins, solid, _⟩ := exists_printAt_eq_cons textual depth
  rw [begins, skip, List.dropWhile_cons_of_pos rfl, ← skip, List.cons_append,
    skip_of_not_space solid]

theorem reads_memberName_print {name : Text} {v : Value} (textual : v.Textual) (depth : Nat)
    (rest : Text) :
    Reads (memberName (memberText depth name v ++ rest)) (.ofText name)
      (printAt (depth + 1) v ++ rest) := by
  have named := reads_memberName name (' ' :: (printAt (depth + 1) v ++ rest))
  rw [skip_space_printAt textual] at named
  rw [memberText, List.append_assoc, List.cons_append, List.cons_append]
  exact named

theorem reads_members_print {member : Symbols × Value} {more : Members} (depth : Nat) (rest : Text)
    (named : ∀ m ∈ member :: more, ∃ name, m.1 = .ofText name)
    (textual : ∀ m ∈ member :: more, m.2.Textual) (back : ∀ m ∈ member :: more, m.2.ReadsBack) :
    Reads (members
      (Text.join (',' :: lineBreak (depth + 1)) (printMembers depth (member :: more)) ++
        (lineBreak depth ++ '\x7d' :: rest))) (member :: more) rest := by
  induction more generalizing member with
  | nil =>
      obtain ⟨name, v, rfl⟩ := exists_member_eq (named member List.mem_cons_self)
      rw [printMembers_cons, printMembers, Text.join, List.intercalate_singleton]
      exact reads_members_last (reads_memberName_print (textual _ List.mem_cons_self) depth _)
        (back _ List.mem_cons_self (depth + 1) _) (reads_separator_close depth rest rfl)
  | cons next more ih =>
      obtain ⟨name, v, rfl⟩ := exists_member_eq (named member List.mem_cons_self)
      obtain ⟨name', v', rfl⟩ := exists_member_eq (named next (by simp))
      have others := ih (fun m h => named m (List.mem_cons_of_mem _ h))
        (fun m h => textual m (List.mem_cons_of_mem _ h))
        (fun m h => back m (List.mem_cons_of_mem _ h))
      rw [printMembers_cons] at others
      rw [printMembers_cons, printMembers_cons, Text.join, List.intercalate_cons_cons,
        List.append_assoc, List.append_assoc, List.cons_append]
      refine reads_members_more (reads_memberName_print (textual _ List.mem_cons_self) depth _)
        (back _ List.mem_cons_self (depth + 1) _) (reads_separator_comma _ (by decide)) ?_
      rw [skip_lineBreak, ← Text.join, skip_join_append (memberText_eq_cons depth name' v') rfl]
      exact others

theorem readsBack_array {content : List Value} (textual : ∀ v ∈ content, v.Textual)
    (back : ∀ v ∈ content, v.ReadsBack) : (Value.array content).ReadsBack := by
  intro depth rest
  cases content with
  | nil => exact reads_array_nil rest
  | cons item more =>
      obtain ⟨c, t, begins, solid, other, _⟩ :=
        exists_printAt_eq_cons (textual item List.mem_cons_self) (depth + 1)
      have inside := reads_items_print depth rest textual back
      rw [printItems] at inside
      rw [printAt, printItems, block_append (List.cons_ne_nil _ _)]
      refine reads_array (closed?_join begins solid other _ _ _ _) ?_
      rw [skip_lineBreak, skip_join_append begins solid]
      exact inside

theorem readsBack_object {content : Members} (distinct : (KeyedList.keys content).Nodup)
    (named : ∀ m ∈ content, ∃ name, m.1 = .ofText name) (textual : ∀ m ∈ content, m.2.Textual)
    (back : ∀ m ∈ content, m.2.ReadsBack) : (Value.object content).ReadsBack := by
  intro depth rest
  cases content with
  | nil => exact reads_object_nil rest
  | cons member more =>
      have inside := reads_members_print depth rest named textual back
      obtain ⟨name, v, rfl⟩ := exists_member_eq (named member List.mem_cons_self)
      have begins := memberText_eq_cons depth name v
      rw [printMembers_cons] at inside
      rw [printAt, printMembers_cons, block_append (List.cons_ne_nil _ _)]
      have whole := reads_object (closed?_join begins rfl (by decide) (depth + 1) _ _ _)
        ((skip_lineBreak _ _).trans (skip_join_append begins rfl _ _ _) ▸ inside)
      rw [KeyedList.ofPairs_of_nodup_keys distinct] at whole
      exact whole

theorem readsBack_of_textual {v : Value} (textual : v.Textual) : v.ReadsBack := by
  induction textual with
  | null => exact fun _ rest => reads_null rest
  | boolean b =>
      intro depth rest
      cases b with
      | true => exact reads_true rest
      | false => exact reads_false rest
  | string t =>
      intro depth rest
      rw [printAt, quotedSymbols_ofText]
      exact reads_value_string t rest
  | array all ih => exact readsBack_array all ih
  | object distinct named all ih => exact readsBack_object distinct named all ih

/-- A textual value is read from its print as it was. -/
theorem read_print {v : Value} (textual : v.Textual) : read (print v) = .ok v := by
  obtain ⟨c, t, begins, solid, _, unmarked⟩ := exists_printAt_eq_cons textual 0
  have back := readsBack_of_textual textual 0 []
  rw [List.append_nil] at back
  have start : skip (print v) = printAt 0 v := by rw [print, begins, skip_of_not_space solid]
  rw [← start] at back
  obtain ⟨after, nothing, value⟩ := back
  have head : (print v).head? ≠ some '\ufeff' := by
    rw [print, begins]
    simpa using unmarked
  rw [read, document, if_neg head, value]
  simp only [nothing]
  rfl

end FileCoverage.Json

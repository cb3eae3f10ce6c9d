import FileCoverage.KeyedList
import FileCoverage.Text.Blank
import FileCoverage.Text.Rest

/-!
# Environment files

An environment file binds names to values, one binding a line: a name, an equals sign and a value,
with the word `export` allowed in front.  A name without an equals sign is bound to no value.

* A name may stand between single quotes.  Otherwise it goes on to a blank, `=` or `#`.
* A value between quotes may go on over several lines.  A character after a backslash is part of
  it, so that a quote after a backslash closes no value.
* A value without quotes goes on to the end of the line; a `#` after a blank begins a comment.

A line of another form binds nothing.  A byte order mark in front of the first line is dropped.
-/

namespace FileCoverage.EnvFile

open Text (Rest length_dropWhile_le)

/-- A name with its value, if it has one. -/
abbrev Binding := Text × Option Text

/-- A blank that ends no line. -/
def isInlineBlank (c : Char) : Bool := Text.isBlank c && c ≠ '\n' && c ≠ '\r'

/-- A character that ends no line. -/
def isInline (c : Char) : Bool := c ≠ '\n' && c ≠ '\r'

/-- The text after the blanks at the start of its line. -/
def skipBlanks (t : Text) : Text := t.dropWhile isInlineBlank

theorem length_skipBlanks_le (t : Text) : (skipBlanks t).length ≤ t.length :=
  length_dropWhile_le isInlineBlank t

/-- The text after its first line. -/
def afterLine (t : Text) : Text := (t.dropWhile isInline).drop 1

theorem length_afterLine_le (t : Text) : (afterLine t).length ≤ t.length := by
  have := length_dropWhile_le isInline t
  simp only [afterLine, List.length_drop]
  omega

theorem length_afterLine_cons_lt (c : Char) (t : Text) :
    (afterLine (c :: t)).length < (c :: t).length := by
  have := length_dropWhile_le isInline t
  simp only [afterLine, List.dropWhile_cons]
  split
  · simp
    omega
  · simp

/-- The text after `export` and a blank, if it begins so. -/
def afterExport (t : Text) : Text :=
  let word : Text := "export"
  let rest := t.drop word.length
  if word.isPrefixOf t && (rest.head?.any isInlineBlank) then skipBlanks rest else t

theorem length_afterExport_le (t : Text) : (afterExport t).length ≤ t.length := by
  simp only [afterExport]
  split
  · exact Nat.le_trans (length_skipBlanks_le _) (by simp)
  · exact Nat.le_refl _

/-! ### Names -/

/-- A character of a name without quotes. -/
def isNameChar (c : Char) : Bool := c ≠ '=' && c ≠ '#' && !Text.isBlank c

/-- A name between single quotes, the first of which has been read. -/
def quotedName? : Text → Option (Text × Text)
  | [] => none
  | c :: rest =>
    if c = '\x27' then some ([], rest)
    else (quotedName? rest).map fun (name, after) => (c :: name, after)

theorem length_quotedName?_lt {t name after : Text} (h : quotedName? t = some (name, after)) :
    after.length < t.length := by
  induction t generalizing name with
  | nil => simp [quotedName?] at h
  | cons c rest ih =>
    rw [quotedName?] at h
    split at h
    · simp_all
    · obtain ⟨⟨name', after'⟩, found, eq⟩ := Option.map_eq_some_iff.1 h
      obtain ⟨-, rfl⟩ := Prod.mk.inj eq
      exact Nat.lt_succ_of_lt (ih found)

/-- The name at the start of a text, and the text after it. -/
def name? : Text → Option (Text × Text)
  | [] => none
  | c :: rest =>
    if c = '\x27' then (quotedName? rest).filter (·.1 ≠ [])
    else if isNameChar c then some (c :: rest.takeWhile isNameChar, rest.dropWhile isNameChar)
    else none

theorem length_name?_lt {t name after : Text} (h : name? t = some (name, after)) :
    after.length < t.length := by
  cases t with
  | nil => simp [name?] at h
  | cons c rest =>
    rw [name?] at h
    split at h
    · have := length_quotedName?_lt (Option.filter_eq_some_iff.1 h).1
      simp only [List.length_cons]
      omega
    · split at h
      · have := length_dropWhile_le isNameChar rest
        simp only [Option.some.injEq, Prod.mk.injEq] at h
        simp only [List.length_cons, ← h.2]
        omega
      · simp at h

/-! ### Values -/

/--
The characters up to the quote that closes a value, as they are written, and the text after it.  A
character after a backslash closes nothing.
-/
def closing? (quote : Char) : Text → Option (Text × Text)
  | [] => none
  | '\\' :: c :: rest =>
    (closing? quote rest).map fun (raw, after) => ('\\' :: c :: raw, after)
  | c :: rest =>
    if c = quote then some ([], rest)
    else (closing? quote rest).map fun (raw, after) => (c :: raw, after)

theorem length_closing?_lt {quote : Char} {t raw after : Text}
    (h : closing? quote t = some (raw, after)) : after.length < t.length := by
  fun_induction closing? quote t generalizing raw after with
  | case1 => simp at h
  | case2 c rest ih =>
    obtain ⟨⟨raw', after'⟩, found, eq⟩ := Option.map_eq_some_iff.1 h
    obtain ⟨-, rfl⟩ := Prod.mk.inj eq
    exact Nat.lt_succ_of_lt (Nat.lt_succ_of_lt (ih found))
  | case3 =>
    obtain ⟨-, rfl⟩ := by simpa using h
    simp
  | case4 c rest _ _ ih =>
    obtain ⟨⟨raw', after'⟩, found, eq⟩ := Option.map_eq_some_iff.1 h
    obtain ⟨-, rfl⟩ := Prod.mk.inj eq
    exact Nat.lt_succ_of_lt (ih found)

/-- What a character after a backslash stands for between single quotes. -/
def singleEscape? (c : Char) : Option Char := if c = '\\' ∨ c = '\x27' then some c else none

/-- What a character after a backslash stands for between double quotes. -/
def doubleEscape? (c : Char) : Option Char :=
  if c = '\\' ∨ c = '\x27' ∨ c = '"' then some c
  else if c = 'a' then some '\x07'
  else if c = 'b' then some '\x08'
  else if c = 'f' then some '\x0c'
  else if c = 'n' then some '\n'
  else if c = 'r' then some '\r'
  else if c = 't' then some '\t'
  else if c = 'v' then some '\x0b'
  else none

/-- Replaces the escapes; a backslash in front of any other character is kept. -/
def unescape (meaning? : Char → Option Char) : Text → Text
  | [] => []
  | '\\' :: c :: rest =>
    match meaning? c with
    | some meant => meant :: unescape meaning? rest
    | none => '\\' :: unescape meaning? (c :: rest)
  | c :: rest => c :: unescape meaning? rest

/-- The line up to a `#` that comes after a blank. -/
def beforeComment : Text → Text
  | [] => []
  | c :: rest =>
    if Text.isBlank c && rest.head? = some '#' then [] else c :: beforeComment rest

/-- The value on the rest of a line, which may have blanks in front of it and after it. -/
def plainValue (line : Text) : Text := Text.trim (beforeComment line)

/-- The value after the blanks at the start of a text, and the text after it. -/
def value? (t : Text) : Option (Text × Text) :=
  match skipBlanks t with
  | '\x27' :: rest =>
    (closing? '\x27' rest).map fun (raw, after) => (unescape singleEscape? raw, after)
  | '"' :: rest => (closing? '"' rest).map fun (raw, after) => (unescape doubleEscape? raw, after)
  | _ => some (plainValue (t.takeWhile isInline), t.dropWhile isInline)

theorem length_value?_le {t value after : Text} (h : value? t = some (value, after)) :
    after.length ≤ t.length := by
  have short := length_skipBlanks_le t
  rw [value?.eq_def] at h
  split at h
  · next rest eq =>
    obtain ⟨⟨raw, after'⟩, found, eq'⟩ := Option.map_eq_some_iff.1 h
    obtain ⟨-, rfl⟩ := Prod.mk.inj eq'
    have := length_closing?_lt found
    rw [eq, List.length_cons] at short
    omega
  · next rest eq =>
    obtain ⟨⟨raw, after'⟩, found, eq'⟩ := Option.map_eq_some_iff.1 h
    obtain ⟨-, rfl⟩ := Prod.mk.inj eq'
    have := length_closing?_lt found
    rw [eq, List.length_cons] at short
    omega
  · obtain ⟨-, rfl⟩ := by simpa using h
    exact length_dropWhile_le isInline t

/-! ### Lines -/

/-- The text after the line, if nothing but a comment is left on it. -/
def lineEnd? (t : Text) : Option Text :=
  match skipBlanks t with
  | [] => some []
  | c :: rest =>
    if c = '\n' then some rest
    else if c = '#' then some (afterLine rest)
    else none

theorem length_lineEnd?_le {t after : Text} (h : lineEnd? t = some after) :
    after.length ≤ t.length := by
  have short := length_skipBlanks_le t
  rw [lineEnd?] at h
  split at h
  · simp_all
  · next c rest eq =>
    have := length_afterLine_le rest
    rw [eq, List.length_cons] at short
    grind

/-- The value after a name, if an equals sign follows it, and the text after it. -/
def assigned? (t : Text) : Option (Option Text × Text) :=
  match skipBlanks t with
  | '=' :: rest => (value? rest).map fun (value, after) => (some value, after)
  | rest => some (none, rest)

theorem length_assigned?_le {t after : Text} {value : Option Text}
    (h : assigned? t = some (value, after)) : after.length ≤ t.length := by
  have short := length_skipBlanks_le t
  rw [assigned?] at h
  split at h
  · next rest eq =>
    obtain ⟨⟨raw, after'⟩, found, eq'⟩ := Option.map_eq_some_iff.1 h
    obtain ⟨-, rfl⟩ := Prod.mk.inj eq'
    have := length_value?_le found
    rw [eq, List.length_cons] at short
    omega
  · grind

/-! ### Files -/

/-- The binding at the start of a text without its export, and the text from which to go on. -/
def plainBinding (t : Text) : Option Binding × Text :=
  if t.head? = some '#' then (none, afterLine t)
  else match name? t with
    | none => (none, afterLine t)
    | some (name, rest) =>
      match assigned? rest with
      | none => (none, afterLine rest)
      | some (value, rest) =>
        match lineEnd? rest with
        | none => (none, afterLine rest)
        | some rest => (some (name, value), rest)

theorem length_plainBinding_le (t : Text) :
    (plainBinding t).2.length ≤ (afterLine t).length ∨ (plainBinding t).2.length < t.length := by
  rw [plainBinding]
  split
  · exact .inl (Nat.le_refl _)
  · split
    · exact .inl (Nat.le_refl _)
    · next named =>
      have := length_name?_lt named
      split
      · next rest _ _ => exact .inr (Nat.lt_of_le_of_lt (length_afterLine_le rest) this)
      · next assigned =>
        have := length_assigned?_le assigned
        split
        · next rest _ _ =>
          have := length_afterLine_le rest
          simp only
          omega
        · next ended =>
          have := length_lineEnd?_le ended
          simp only
          omega

/-- The binding at the start of a text, and the text from which to go on. -/
def binding (t : Text) : Option Binding × Text := plainBinding (afterExport t)

theorem length_binding_cons_lt (c : Char) (t : Text) :
    (binding (c :: t)).2.length < (c :: t).length := by
  have short := length_afterExport_le (c :: t)
  have := length_plainBinding_le (afterExport (c :: t))
  rw [binding]
  cases eq : afterExport (c :: t) with
  | nil =>
    have := length_afterLine_le []
    simp_all
  | cons d rest =>
    have := length_afterLine_cons_lt d rest
    simp_all
    omega

def bindings (t : Text) : List Binding :=
  match _first : t.dropWhile Text.isBlank with
  | [] => []
  | c :: rest =>
    (binding (c :: rest)).1.toList ++ bindings (binding (c :: rest)).2
termination_by t.length
decreasing_by
  have := length_dropWhile_le Text.isBlank t
  rw [_first] at this
  exact Nat.lt_of_lt_of_le (length_binding_cons_lt c rest) this

/-- The text without the byte order mark in front of it, if it has one. -/
def dropMark (t : Text) : Text := if t.head? = some '\ufeff' then t.tail else t

/-- The bindings of the file with the given text, in order. -/
def fileBindings (t : Text) : List Binding := bindings (dropMark t)

end FileCoverage.EnvFile

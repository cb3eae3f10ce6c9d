/-!
# Text

Text is the list of its characters.  String literals stand for text by a coercion, and everything
else is a recursion on the list.  The module holds the operations on text that several formats
share: printing numbers, cutting at a character, replacing a pattern, and folding case.

Changing the case knows the letters of ASCII only.  It is used to compare with fixed words, and no
other character has one of their letters as its small or capital form.  Folding the case is coarser:
the long s is folded to an s.
-/

namespace FileCoverage

abbrev Text := List Char

instance : Coe String Text := ⟨String.toList⟩

namespace Text

/-- The digits of `n` in base ten, without leading zeros. -/
def ofNat (n : Nat) : Text := Nat.toDigits 10 n

/-- The digits of the absolute value, after a minus sign if the number is negative. -/
def ofInt : Int → Text
  | .ofNat n => ofNat n
  | .negSucc n => '-' :: ofNat (n + 1)

/-- Puts the character in front until the text has the given length. -/
def padLeft (length : Nat) (c : Char) (t : Text) : Text :=
  List.replicate (length - t.length) c ++ t

/-- The last `count` digits of `n` in base sixteen, in small letters. -/
def hex (count n : Nat) : Text := padLeft count '0' (Nat.toDigits 16 n)

/-- The value of a digit in base sixteen, in small or capital letters. -/
def hexValue? (c : Char) : Option Nat :=
  if '0' ≤ c ∧ c ≤ '9' then some (c.toNat - '0'.toNat)
  else if 'a' ≤ c ∧ c ≤ 'f' then some (c.toNat - 'a'.toNat + 10)
  else if 'A' ≤ c ∧ c ≤ 'F' then some (c.toNat - 'A'.toNat + 10)
  else none

/-- The pieces between the occurrences of a character; there is one more piece than occurrences. -/
def splitOn (c : Char) : Text → List Text
  | [] => [[]]
  | d :: rest =>
    if d = c then [] :: splitOn c rest
    else match splitOn c rest with
      | [] => [[d]]
      | piece :: pieces => (d :: piece) :: pieces

@[simp]
theorem splitOn_nil (c : Char) : splitOn c [] = [[]] := rfl

theorem splitOn_ne_nil (c : Char) (t : Text) : splitOn c t ≠ [] := by
  cases t with
  | nil => simp [splitOn]
  | cons d rest =>
    rw [splitOn]
    split
    · simp
    · split <;> simp

/-- The text before and after the first occurrence of a character. -/
def cutAt? (c : Char) : Text → Option (Text × Text)
  | [] => none
  | d :: rest =>
    if d = c then some ([], rest)
    else (cutAt? c rest).map fun (before, after) => (d :: before, after)

/-- The text before and after the last occurrence of a character. -/
def cutAtLast? (c : Char) : Text → Option (Text × Text)
  | [] => none
  | d :: rest =>
    match cutAtLast? c rest with
    | some (before, after) => some (d :: before, after)
    | none => if d = c then some ([], rest) else none

theorem cutAtLast?_eq_none {c : Char} {t : Text} (h : cutAtLast? c t = none) : c ∉ t := by
  induction t with
  | nil => simp
  | cons d rest ih =>
    rw [cutAtLast?] at h
    split at h
    · simp at h
    · next none => grind

theorem cutAtLast?_eq_some {c : Char} {t before after : Text}
    (h : cutAtLast? c t = some (before, after)) : t = before ++ c :: after ∧ c ∉ after := by
  induction t generalizing before after with
  | nil => simp [cutAtLast?] at h
  | cons d rest ih =>
    rw [cutAtLast?] at h
    split at h
    · next found =>
      obtain ⟨rfl, rfl⟩ := by simpa using h
      exact ⟨by simp [(ih found).1], (ih found).2⟩
    · next none =>
      split at h
      · next eq =>
        obtain ⟨rfl, rfl⟩ := by simpa using h
        exact ⟨by simp [eq], cutAtLast?_eq_none none⟩
      · simp at h

/-- The text with the words `parts` joined by `separator`. -/
def join (separator : Text) (parts : List Text) : Text := separator.intercalate parts

/--
Replaces every occurrence of `pattern`, from left to right and without overlaps.  `skip` counts the
characters of the occurrence just replaced that are still to be passed over.
-/
def replaceFrom (pattern replacement : Text) : Nat → Text → Text
  | _, [] => []
  | 0, c :: rest =>
    if pattern.isPrefixOf (c :: rest) then
      replacement ++ replaceFrom pattern replacement (pattern.length - 1) rest
    else c :: replaceFrom pattern replacement 0 rest
  | skip + 1, _ :: rest => replaceFrom pattern replacement skip rest

/-- Replaces every occurrence of a non-empty `pattern`, from left to right and without overlaps. -/
def replace (pattern replacement t : Text) : Text := replaceFrom pattern replacement 0 t

@[simp]
theorem replace_nil (pattern replacement : Text) : replace pattern replacement [] = [] := rfl

def lower (t : Text) : Text := t.map Char.toLower

/-- The text with the case folded: the long s is a spelling of the small one. -/
def fold (t : Text) : Text := t.map fun c => if c = '\u017f' then 's' else c.toLower

def upper (t : Text) : Text := t.map Char.toUpper

/-- The last `count` characters. -/
def takeLast (count : Nat) (t : Text) : Text := t.drop (t.length - count)

def precedes (a b : Text) : Bool := !decide (b < a)

/-- The texts in code-point order; equal texts keep their number. -/
def sorted (ts : List Text) : List Text := ts.mergeSort precedes

end Text

end FileCoverage

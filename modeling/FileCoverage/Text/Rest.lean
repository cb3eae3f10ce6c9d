import FileCoverage.Text.Basic

/-!
# What is left of a text

Reading from the start of a text leaves a shorter one, which is an end of it.  The type `Rest s`
says so, and a recursion that goes on with what is left ends because of it.
-/

namespace FileCoverage.Text

theorem length_dropWhile_le (p : Char → Bool) (s : Text) : (s.dropWhile p).length ≤ s.length :=
  (List.dropWhile_suffix p).length_le

/-- An end of the text `s` that is shorter than `s`. -/
structure Rest (s : Text) where
  val : Text
  shorter : val.length < s.length
  isEnd : val <:+ s

namespace Rest

/-- What is left after the first character. -/
def tail (c : Char) (s : Text) : Rest (c :: s) := ⟨s, by simp, List.suffix_cons c s⟩

/-- What is left after the characters that satisfy `p`. -/
def dropWhile (p : Char → Bool) {s : Text} (r : Rest s) : Rest s :=
  ⟨r.1.dropWhile p, Nat.lt_of_le_of_lt (length_dropWhile_le p r.1) r.2,
    (List.dropWhile_suffix p).trans r.3⟩

def trans {s : Text} (r : Rest s) (after : Rest r.1) : Rest s :=
  ⟨after.1, Nat.lt_trans after.2 r.2, after.3.trans r.3⟩

@[simp]
theorem val_tail (c : Char) (s : Text) : (tail c s).1 = s := rfl

@[simp]
theorem val_dropWhile (p : Char → Bool) {s : Text} (r : Rest s) :
    (r.dropWhile p).1 = r.1.dropWhile p := rfl

@[simp]
theorem val_trans {s : Text} (r : Rest s) (after : Rest r.1) : (r.trans after).1 = after.1 := rfl

end Rest

end FileCoverage.Text

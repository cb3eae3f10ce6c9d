import FileCoverage.Text.Basic

/-!
# Blanks

A blank is a character of the Unicode property White_Space, or one of the four information
separators U+001C to U+001F.  Text is trimmed of blanks at its ends and cut into words at runs of
blanks.

Numbers are read with a smaller class: an information separator beside a number is an error there.
-/

namespace FileCoverage.Text

def isSeparator (c : Char) : Bool := '\x1c' ≤ c && c ≤ '\x1f'

def isNumberBlank (c : Char) : Bool :=
  ('\x09' ≤ c && c ≤ '\x0d') || c = ' ' || c = '\u0085' || c = '\u00a0' || c = '\u1680'
    || ('\u2000' ≤ c && c ≤ '\u200a') || c = '\u2028' || c = '\u2029' || c = '\u202f'
    || c = '\u205f' || c = '\u3000'

def isBlank (c : Char) : Bool := isNumberBlank c || isSeparator c

theorem isBlank_of_isNumberBlank {c : Char} (h : isNumberBlank c = true) : isBlank c = true := by
  simp [isBlank, h]

/-- Drops what satisfies `drop` from both ends. -/
def trimBy (drop : Char → Bool) (t : Text) : Text :=
  ((t.dropWhile drop).reverse.dropWhile drop).reverse

def trim (t : Text) : Text := trimBy isBlank t

def trimRight (t : Text) : Text := (t.reverse.dropWhile isBlank).reverse

@[simp]
theorem trim_nil : trim [] = [] := rfl

/-- Whether nothing but blanks is there. -/
def isAllBlank (t : Text) : Bool := t.all isBlank

/-- The words of a text and the word still open at its start. -/
def wordsFrom : Text → Text × List Text
  | [] => ([], [])
  | c :: rest =>
    let (word, words) := wordsFrom rest
    if isBlank c then ([], if word = [] then words else word :: words)
    else (c :: word, words)

/-- The words of a text: its longest pieces without a blank. -/
def words (t : Text) : List Text :=
  let (word, words) := wordsFrom t
  if word = [] then words else word :: words

@[simp]
theorem words_nil : words [] = [] := rfl

end FileCoverage.Text

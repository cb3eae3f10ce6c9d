import FileCoverage.Json.Symbol

/-!
# JSON strings

A string stands between double quotes.  The double quote and the backslash have a backslash in
front, five control characters have an escape letter, and the other control characters are written
by their code points.  Every other character stands for itself.  Half of a pair is written by its
code.
-/

namespace FileCoverage.Json

/-- The letters that follow a backslash, with the characters that they stand for. -/
def escapeLetters : List (Char × Char) :=
  [('b', '\x08'), ('f', '\x0c'), ('n', '\n'), ('r', '\r'), ('t', '\t')]

def escapeLetter? (c : Char) : Option Char :=
  (escapeLetters.find? fun (_, meant) => meant = c).map (·.1)

def escaped (c : Char) : Text :=
  if c = '"' ∨ c = '\\' then ['\\', c]
  else match escapeLetter? c with
    | some letter => ['\\', letter]
    | none => if c.toNat < 0x20 then "\\u" ++ Text.hex 4 c.toNat else [c]

def quoted (t : Text) : Text := '"' :: t.flatMap escaped ++ ['"']

def escapedSymbol : Symbol → Text
  | .char c => escaped c
  | .half rank => "\\u" ++ Text.hex 4 (halfCode rank)

def quotedSymbols (s : Symbols) : Text := '"' :: s.flatMap escapedSymbol ++ ['"']

@[simp]
theorem quotedSymbols_ofText (t : Text) : quotedSymbols (.ofText t) = quoted t := by
  simp [quotedSymbols, quoted, Symbols.ofText, List.flatMap_map, escapedSymbol]

end FileCoverage.Json

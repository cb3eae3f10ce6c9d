import FileCoverage.Text.Unprintable

/-!
# Quoted text

Messages show a piece of text between single quotes, or between double quotes if it holds a single
quote and no double quote.  A backslash and the quote that is used are escaped by a backslash; tab,
line feed and carriage return have escapes of their own; any other unprintable character is written
by its code point, with two, four or eight digits.
-/

namespace FileCoverage.Text

def quoteFor (t : Text) : Char :=
  if '\x27' ∈ t ∧ '"' ∉ t then '"' else '\x27'

/-- A code point by the shortest of the three numeric escapes that can hold it. -/
def escapeCode (n : Nat) : Text :=
  if n < 0x100 then "\\x" ++ hex 2 n
  else if n < 0x10000 then "\\u" ++ hex 4 n
  else "\\U" ++ hex 8 n

def escapeIn (quote c : Char) : Text :=
  if c = quote ∨ c = '\\' then ['\\', c]
  else if c = '\t' then "\\t"
  else if c = '\n' then "\\n"
  else if c = '\r' then "\\r"
  else if isPrintable c then [c]
  else escapeCode c.toNat

def quoted (t : Text) : Text :=
  let quote := quoteFor t
  quote :: t.flatMap (escapeIn quote) ++ [quote]

end FileCoverage.Text

import FileCoverage.Text.Basic

/-!
# Symbols of JSON strings

A JSON string may give a character by its code of four digits, and a character beyond U+FFFF by two
codes, which are the halves of a pair.  Nothing keeps a string from giving half of a pair alone.  So
a string is a list of symbols: characters, and halves that belong to no pair.

Elsewhere there are characters only.  There a half is the private-use character of the same rank
among the last of all characters, so that strings with different halves stay different.
-/

namespace FileCoverage.Json

/-- What stands at one place of a string. -/
inductive Symbol where
  | char (c : Char)
  /-- Half of a pair, by its rank among the halves. -/
  | half (rank : Fin 2048)
  deriving DecidableEq, Repr

abbrev Symbols := List Symbol

/-! ### Codes -/

/-- The first halves of pairs. -/
def isHighHalf (n : Nat) : Bool := 0xd800 ≤ n && n < 0xdc00

def isLowHalf (n : Nat) : Bool := 0xdc00 ≤ n && n < 0xe000

def joinHalves (high low : Nat) : Char :=
  Char.ofNat (0x10000 + (high - 0xd800) * 0x400 + (low - 0xdc00))

def halfCode (rank : Fin 2048) : Nat := 0xd800 + rank.val

def Symbol.ofCode (n : Nat) : Symbol :=
  if isHighHalf n || isLowHalf n then half (Fin.ofNat 2048 (n - 0xd800)) else char (Char.ofNat n)

/-! ### Text -/

/-- The character of a symbol, in private use if the symbol is a half. -/
def Symbol.toChar : Symbol → Char
  | char c => c
  | half rank => Char.ofNat (0x10f800 + rank.val)

def Symbols.ofText (t : Text) : Symbols := t.map .char

def Symbols.toText (s : Symbols) : Text := s.map Symbol.toChar

@[simp]
theorem Symbols.toText_ofText (t : Text) : toText (ofText t) = t := by
  simp [toText, ofText, Symbol.toChar, Function.comp_def]

end FileCoverage.Json

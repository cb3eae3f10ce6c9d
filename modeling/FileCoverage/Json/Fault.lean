import FileCoverage.Number.Numeral

/-!
# Faults in JSON text

A fault in the form of a text has a place, told by its line, its column and its offset.  An integer
with too many digits is well-formed but refused.

While a text is read, a place is known by how many characters are left from there on (`Stop`); what
is left decides the place in the whole text.
-/

namespace FileCoverage.Json

inductive Problem where
  | value
  | propertyName
  | colon
  | comma
  | unterminatedString
  | controlCharacter
  | escapeLetter
  | escapeCode
  | extraData
  | byteOrderMark
  deriving DecidableEq, Repr

def Problem.message : Problem → Text
  | .value => "Expecting value"
  | .propertyName => "Expecting property name enclosed in double quotes"
  | .colon => "Expecting ':' delimiter"
  | .comma => "Expecting ',' delimiter"
  | .unterminatedString => "Unterminated string starting at"
  | .controlCharacter => "Invalid control character at"
  | .escapeLetter => "Invalid \\escape"
  | .escapeCode => "Invalid \\uXXXX escape"
  | .extraData => "Extra data"
  | .byteOrderMark => "Unexpected UTF-8 BOM (decode using utf-8-sig)"

/-- A place in a text; lines and columns are counted from one, the offset from zero. -/
structure Place where
  line : Nat
  column : Nat
  offset : Nat
  deriving DecidableEq, Repr

def Place.after (t : Text) : Place :=
  ⟨t.count '\n' + 1, (t.reverse.takeWhile (· ≠ '\n')).length + 1, t.length⟩

def Place.message (place : Place) : Text :=
  "line " ++ Text.ofNat place.line ++ " column " ++ Text.ofNat place.column ++ " (char "
    ++ Text.ofNat place.offset ++ ")"

/-- Why a text is no JSON value. -/
inductive Fault where
  | malformed (problem : Problem) (place : Place)
  | numeral (fault : NumeralFault)
  deriving DecidableEq, Repr

def Fault.message : Fault → Text
  | .malformed problem place => problem.message ++ ": " ++ place.message
  | .numeral fault => fault.message

inductive Stop where
  /-- A problem at the place from which so many characters are left. -/
  | malformed (problem : Problem) (remaining : Nat)
  | numeral (fault : NumeralFault)
  deriving DecidableEq, Repr

def Stop.fault (t : Text) : Stop → Fault
  | .malformed problem remaining =>
    .malformed problem (Place.after (t.take (t.length - remaining)))
  | .numeral fault => .numeral fault

end FileCoverage.Json

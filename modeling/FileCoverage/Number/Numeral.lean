import FileCoverage.Text.Blank
import FileCoverage.Text.Digit

/-!
# Integers as text

An integer is written as a run of decimal digits after an optional sign, between blanks.  A single
underscore may stand between two digits.  A run of more than 4300 digits is refused whatever its
value, leading zeros included.
-/

namespace FileCoverage

/-- Why a text is no integer. -/
inductive NumeralFault where
  | malformed
  | tooLong (digits : Nat)
  deriving DecidableEq, Repr

namespace Numeral

def maxDigits : Nat := 4300

/-- Whether a digit is first. -/
def startsWithDigit : Text → Bool
  | [] => false
  | c :: _ => (Text.digitValue? c).isSome

/--
The values of the digits at the start of a text and the text after them.  An underscore is passed
over if a digit follows it and `afterDigit` says that a digit came before it.
-/
def digitRunFrom (afterDigit : Bool) : Text → List Nat × Text
  | [] => ([], [])
  | c :: rest =>
    match Text.digitValue? c with
    | some d =>
      let (digits, after) := digitRunFrom true rest
      (d :: digits, after)
    | none =>
      if afterDigit && c = '_' && startsWithDigit rest then digitRunFrom false rest
      else ([], c :: rest)

/-- The values of the digits at the start of a text, single underscores between them left out. -/
def digitRun (t : Text) : List Nat × Text := digitRunFrom false t

@[simp]
theorem digitRun_nil : digitRun [] = ([], []) := rfl

/-- Whether a minus sign is first, and the text after the sign if there is one. -/
def cutSign : Text → Bool × Text
  | '+' :: rest => (false, rest)
  | '-' :: rest => (true, rest)
  | t => (false, t)

theorem length_cutSign_le (t : Text) : (cutSign t).2.length ≤ t.length := by
  fun_cases cutSign t <;> simp

theorem cutSign_suffix (t : Text) : (cutSign t).2 <:+ t := by
  fun_cases cutSign t
  · exact List.suffix_cons _ _
  · exact List.suffix_cons _ _
  · exact List.suffix_rfl

def signed (negative : Bool) (n : Nat) : Int := if negative then -(n : Int) else n

/-- The integer that a run of digits stands for, if there are digits and not too many of them. -/
def ofRun (negative : Bool) (digits : List Nat) : Except NumeralFault Int :=
  if digits = [] then .error .malformed
  else if maxDigits < digits.length then .error (.tooLong digits.length)
  else .ok (signed negative (Text.ofDigits digits))

/-- Reads a text that holds one integer and nothing else. -/
def parse (t : Text) : Except NumeralFault Int :=
  let (negative, unsigned) := cutSign (Text.trimBy Text.isNumberBlank t)
  match digitRun unsigned with
  | (digits, []) => ofRun negative digits
  | _ => .error .malformed

end Numeral

def NumeralFault.message : NumeralFault → Text
  | .malformed => "not a whole number"
  | .tooLong digits => "Exceeds the limit (" ++ Text.ofNat Numeral.maxDigits
      ++ " digits) for integer string conversion: value has " ++ Text.ofNat digits
      ++ " digits; use sys.set_int_max_str_digits() to increase the limit"

end FileCoverage

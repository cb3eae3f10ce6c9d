import FileCoverage.Number.Binary64

/-!
# Percentages

The percentage of covered lines has two places.  The quotient is first rounded to 28 significant
digits, a tie to the even one, and then to hundredths, a tie away from zero.  Of nothing, nothing is
covered.
-/

namespace FileCoverage.Percentage

def precision : Nat := 28

/-- A quotient rounded to the nearest natural, a tie to the greater one. -/
def roundHalfUp (num den : Nat) : Nat := (2 * num + den) / (2 * den)

/--
A quotient of positive naturals with as many significant digits as `precision` says: its digits and
how many of them stand after the point.
-/
def divide (num den : Nat) : Nat × Nat :=
  let places := precision + (Nat.toDigits 10 den).length - (Nat.toDigits 10 num).length
  let places := if num * Nat.pow 10 places / den < Nat.pow 10 precision then places else places - 1
  (Binary64.roundHalfEven (num * Nat.pow 10 places) den, places)

def hundredths (covered executable : Nat) : Nat :=
  if executable = 0 ∨ covered = 0 then 0
  else
    let (digits, places) := divide (covered * 100) executable
    roundHalfUp (digits * 100) (Nat.pow 10 places)

def toText (n : Nat) : Text :=
  Text.ofNat (n / 100) ++ "." ++ Text.padLeft 2 '0' (Text.ofNat (n % 100))

end FileCoverage.Percentage

import FileCoverage.Build.Process
import FileCoverage.Proofs.DecimalText
import FileCoverage.Proofs.ExactPercentage
import Mathlib.Algebra.Order.Field.Power
import Mathlib.Data.Rat.Cast.Order
import Mathlib.Tactic.Positivity

/-!
# How long a process can be waited for

A time can be waited for exactly if it is at most 2147483.647 seconds; that is 35791 minutes, if it
is a whole number of them.  The numbers of 64 bits are compared with that bound by what they stand
for, and a whole number of 2^53 or more is not rounded below 2^53.
-/

namespace FileCoverage

namespace Binary64

/-- The seconds are a number that comes to at most so many milliseconds. -/
def IsWithin (milliseconds : Nat) : Binary64 → Prop
  | .finite negative m e => negative = true ∨ 1000 * ((m : ℚ) * 2 ^ e) ≤ milliseconds
  | .infinite negative => negative = true
  | .nan => False

end Binary64

namespace WaitFault

open Binary64

end WaitFault

end FileCoverage

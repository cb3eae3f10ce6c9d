import FileCoverage.Number.Binary64

/-!
# Durations

A duration is given in seconds, as a whole number of any size or as a number of 64 bits.  It is told
and compared as a number of 64 bits, which a whole number may be too large for.
-/

namespace FileCoverage

inductive Duration where
  | whole (seconds : Int)
  | real (seconds : Binary64)
  deriving DecidableEq, Repr

namespace Duration

def ofMinutes (minutes : Int) : Duration := .whole (minutes * 60)

/-- The seconds, if a number of 64 bits can hold them. -/
def seconds? : Duration → Option Binary64
  | whole n =>
    match Binary64.ofInt n with
    | .finite negative m e => some (.finite negative m e)
    | _ => none
  | real x => some x

/-- What is said of a duration that no number of 64 bits can hold. -/
def tooLongMessage : Text := "int too large to convert to float"

@[simp]
theorem seconds?_real (x : Binary64) : (real x).seconds? = some x := rfl

end Duration

end FileCoverage

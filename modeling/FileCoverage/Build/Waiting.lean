import FileCoverage.Build.Duration

/-!
# Waiting for processes

A process is waited for by calls of the operating system that take a whole number of milliseconds.
A time that is too long for such a call is refused before anything is waited for, even if the
process is over by then.  No time is too short: one that is not positive is over at once.

The time that passes until the call is neglected, and so is rounding.
-/

namespace FileCoverage

/-- Why a process cannot be waited for. -/
inductive WaitFault where
  /-- No number of 64 bits can hold the seconds. -/
  | tooLong
  | notANumber
  /-- No number of 64 bits can hold the milliseconds. -/
  | infinite
  /-- No integer of 64 bits can hold the nanoseconds. -/
  | tooManyNanoseconds
  /-- No integer of 32 bits can hold the milliseconds. -/
  | tooManyMilliseconds
  deriving DecidableEq, Repr

namespace WaitFault

def message : WaitFault → Text
  | tooLong => Duration.tooLongMessage
  | notANumber => "cannot convert float NaN to integer"
  | infinite => "cannot convert float infinity to integer"
  | tooManyNanoseconds => "timestamp too large to convert to C _PyTime_t"
  | tooManyMilliseconds => "timeout is too large"

/-- The most milliseconds that an integer of 32 bits can hold. -/
def mostMilliseconds : Nat := 2147483647

/-- The most milliseconds of which an integer of 64 bits can hold the nanoseconds. -/
def mostInNanoseconds : Nat := 9223372036854

/-- The most milliseconds that round to a finite number of 64 bits. -/
def mostFinite : Nat := Nat.pow 2 1024 - Nat.pow 2 970 - 1

/-- Whether a number of seconds is more than so many milliseconds. -/
def exceeds (milliseconds : Nat) : Binary64 → Bool
  | .finite false m e =>
    let (num, den) := Binary64.rescale 2 (1000 * m) 1 (-e)
    milliseconds * den < num
  | .infinite false => true
  | _ => false

/-- Why the operating system does not wait for a process so long, if it does not. -/
def ofPoll? (time : Duration) : Option WaitFault :=
  match time.seconds? with
  | none => some tooLong
  | some seconds =>
    if seconds = .nan then some notANumber
    else if exceeds mostFinite seconds then some infinite
    else if exceeds mostInNanoseconds seconds then some tooManyNanoseconds
    else if exceeds mostMilliseconds seconds then some tooManyMilliseconds
    else none

end WaitFault

end FileCoverage

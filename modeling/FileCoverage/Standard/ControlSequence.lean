import FileCoverage.Text.Rest

/-!
# Control sequences

A control sequence tells a terminal what to do, such as to change the colour.  It is the escape
character and a left bracket, parameters and intermediate characters in any number, and one final
character.  A text is shown without its control sequences; a beginning that no final character
follows is shown as it stands.
-/

namespace FileCoverage.Text

def escapeCharacter : Char := '\x1b'

def isParameter (c : Char) : Bool := '0' ≤ c && c ≤ '?'

def isIntermediate (c : Char) : Bool := ' ' ≤ c && c ≤ '/'

def isFinal (c : Char) : Bool := '@' ≤ c && c ≤ '~'

/-- What is left after a character of the given class, if one is there. -/
def afterOne? (p : Char → Bool) : (s : Text) → Option (Rest s)
  | [] => none
  | c :: rest => if p c then some (.tail c rest) else none

def afterParameters {s : Text} (r : Rest s) : Rest s :=
  (r.dropWhile isParameter).dropWhile isIntermediate

/-- What is left after a control sequence, of which the escape character has been read. -/
def afterSequence? (s : Text) : Option (Rest s) := do
  let body := afterParameters (← afterOne? (· = '[') s)
  return body.trans (← afterOne? isFinal body.1)

/-- The text without its control sequences. -/
def withoutSequences : Text → Text
  | [] => []
  | c :: rest =>
    match if c = escapeCharacter then afterSequence? rest else none with
    | some after => withoutSequences after.1
    | none => c :: withoutSequences rest
termination_by t => t.length
decreasing_by
  · exact Nat.lt_succ_of_lt after.2
  · simp

end FileCoverage.Text

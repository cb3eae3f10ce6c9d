/-!
# Line states

What is known about a source line: a test has executed it, the instrumentation knows it but no test
has executed it, or the instrumentation does not know it.  The states are ordered by how strong the
evidence is, and merging takes the strongest.
-/

namespace FileCoverage

inductive LineState where
  | unknown
  | notCovered
  | covered
  deriving DecidableEq, Repr

namespace LineState

def rank : LineState → Nat
  | unknown => 0
  | notCovered => 1
  | covered => 2

def max (a b : LineState) : LineState := if b.rank ≤ a.rank then a else b

/-- The strongest of the states; nothing is known if there are none. -/
def merge (states : List LineState) : LineState := states.foldl max unknown

@[simp]
theorem merge_nil : merge [] = unknown := rfl

theorem rank_max (a b : LineState) : (max a b).rank = Nat.max a.rank b.rank := by
  cases a <;> cases b <;> rfl

/-- The state of a line that the instrumentation reports so often, if it reports it at all. -/
def ofCount : Option Nat → LineState
  | none => unknown
  | some 0 => notCovered
  | some (_ + 1) => covered

end LineState

end FileCoverage

import FileCoverage.KeyedList
import FileCoverage.LineState

/-!
# Hits

The hits of a source file say how often each line ran.  Only the lines that the instrumentation
knows are there, each once, in the order in which they were first reported.  Line numbers may be any
integers; what lies outside the file is dropped when the lines are classified.
-/

namespace FileCoverage

/-- How often each reported line ran. -/
structure Hits where
  counts : KeyedList Int Nat
  nodup_lines : (KeyedList.keys counts).Nodup
  deriving DecidableEq, Repr

namespace Hits

def none : Hits := ⟨[], List.nodup_nil⟩

/-- How often a line ran, if it is reported. -/
def get? (hits : Hits) (line : Int) : Option Nat := KeyedList.get? line hits.counts

/-- The hits with `count` more for a line. -/
def add (hits : Hits) (line : Int) (count : Nat) : Hits :=
  ⟨KeyedList.put line ((hits.get? line).getD 0 + count) hits.counts,
    KeyedList.nodup_keys_put _ _ hits.nodup_lines⟩

/-- The hits with those of `other` added to them. -/
def sum (hits other : Hits) : Hits :=
  other.counts.foldl (fun total (line, count) => total.add line count) hits

def lines (hits : Hits) : List Int := KeyedList.keys hits.counts

@[simp]
theorem get?_none (line : Int) : none.get? line = Option.none := rfl

theorem get?_add (hits : Hits) (line other : Int) (count : Nat) :
    (hits.add line count).get? other =
      if other = line then some ((hits.get? line).getD 0 + count) else hits.get? other :=
  KeyedList.get?_put line other _ hits.counts

/-- The state of each line from the first to the last of so many. -/
def classify (hits : Hits) (lineCount : Nat) : List LineState :=
  (List.range lineCount).map fun (i : Nat) => LineState.ofCount (hits.get? ((i : Int) + 1))

@[simp]
theorem length_classify (hits : Hits) (lineCount : Nat) :
    (hits.classify lineCount).length = lineCount := by
  simp [classify]

/-- The reported lines that a file of so many lines does not have, in increasing order. -/
def outOfRange (hits : Hits) (lineCount : Nat) : List Int :=
  (hits.lines.filter fun n => n < 1 || (lineCount : Int) < n).mergeSort (decide <| · ≤ ·)

end Hits

end FileCoverage

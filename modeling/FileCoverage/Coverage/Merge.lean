import FileCoverage.Coverage.Percentage
import FileCoverage.Layout.Target
import FileCoverage.LineState
import FileCoverage.Source

/-!
# Coverage of a source file

Each target that ran gives one state per source line.  Merged line by line they give the coverage of
the file, in which the strongest evidence of any target counts.
-/

namespace FileCoverage

/-- What one target says about the lines of a source file. -/
structure TargetCoverage where
  target : TestTarget
  states : List LineState
  deriving DecidableEq, Repr

/-- A number of states that is not the number of lines. -/
inductive LengthFault where
  /-- The states of one target. -/
  | target (label : Text) (states : Nat) (path : Text) (lines : Nat)
  /-- The states of the whole file. -/
  | file (states : Nat) (path : Text) (lines : Nat)
  deriving DecidableEq, Repr

def LengthFault.message : LengthFault → Text
  | .target label states path lines =>
    "coverage from " ++ label ++ " has " ++ Text.ofNat states ++ " lines, " ++ path ++ " has "
      ++ Text.ofNat lines
  | .file states path lines =>
    "line state count " ++ Text.ofNat states ++ " does not match " ++ Text.ofNat lines
      ++ " lines in " ++ path

/-- A source file with one state for each of its lines. -/
structure Coverage where
  source : SourceFile
  states : List LineState
  length_states : states.length = source.lines.length
  deriving DecidableEq, Repr

namespace Coverage

/-- The coverage with the given states, if there is one for each line. -/
def ofStates (source : SourceFile) (states : List LineState) : Except LengthFault Coverage :=
  if h : states.length = source.lines.length then .ok ⟨source, states, h⟩
  else .error (.file states.length source.path source.lines.length)

def covered (c : Coverage) : Nat := c.states.count .covered

/-- How many lines could have been executed and have not. -/
def notCovered (c : Coverage) : Nat := c.states.count .notCovered

def executable (c : Coverage) : Nat := c.covered + c.notCovered

/-- The percentage of executable lines that have been executed, in hundredths. -/
def percentage (c : Coverage) : Nat := Percentage.hundredths c.covered c.executable

def percentageText (c : Coverage) : Text := Percentage.toText c.percentage

/-- The merged states of so many lines: what each record says is put on top of what is known. -/
def mergedStates (records : List TargetCoverage) (lines : Nat) : List LineState :=
  records.foldl (fun merged r => merged.zipWith LineState.max r.states)
    (List.replicate lines .unknown)

@[simp]
theorem mergedStates_nil (lines : Nat) :
    mergedStates [] lines = List.replicate lines .unknown := rfl

/-- A record whose number of states is not the number of lines, the first of several. -/
def misfit? (records : List TargetCoverage) (lines : Nat) : Option TargetCoverage :=
  records.find? fun r => r.states.length ≠ lines

def merge (source : SourceFile) (records : List TargetCoverage) : Except LengthFault Coverage :=
  match misfit? records source.lines.length with
  | some r =>
    .error (.target r.target.label r.states.length source.path source.lines.length)
  | none => ofStates source (mergedStates records source.lines.length)

theorem misfit?_eq_none_iff (records : List TargetCoverage) (lines : Nat) :
    misfit? records lines = none ↔ ∀ r ∈ records, r.states.length = lines := by
  simp [misfit?]

end Coverage

end FileCoverage

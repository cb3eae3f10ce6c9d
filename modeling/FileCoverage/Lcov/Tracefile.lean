import FileCoverage.FileTree.Workspace
import FileCoverage.Lcov.Hits
import FileCoverage.Number.Binary64
import FileCoverage.Text.Blank

/-!
# Tracefiles

A tracefile is read line by line.  Three kinds of line matter:

* `SF:` and a source path opens a record, and closes the one before;
* `DA:`, a line number, a comma and a count adds to the count of a line of the open record, and is
  passed over where none is open;
* `end_of_record` closes the record.

Blanks around a line do not matter.  A count may be written as any number: its whole part is taken,
and what is below zero counts as zero.  A `DA` line whose numbers cannot be read is passed over like
any other line, but an infinite count in a record makes the whole file unreadable.
-/

namespace FileCoverage.Lcov

/-- What a tracefile says about one source file. -/
structure Record where
  source : Text
  hits : Hits
  deriving DecidableEq, Repr

inductive Line where
  | source (path : Text)
  /-- So many runs of a line; `none` is an infinite count. -/
  | hit (line : Int) (count : Option Nat)
  | recordEnd
  /-- A line that says nothing about lines of a source file. -/
  | other
  deriving DecidableEq, Repr

def sourceMark : Text := "SF:"

def hitMark : Text := "DA:"

def endMark : Text := "end_of_record"

def Line.ofNumbers (line count : Text) : Line :=
  match Numeral.parse line, Binary64.parse? count with
  | .ok n, some (.infinite _) => .hit n none
  | .ok n, some x =>
    match x.truncate? with
    | some c => .hit n (some c.toNat)
    | none => .other
  | _, _ => .other

/-- The meaning of the fields after `DA:`. -/
def Line.ofFields : List Text → Line
  | line :: count :: _ => .ofNumbers line count
  | _ => .other

def Line.ofText (raw : Text) : Line :=
  let t := Text.trim raw
  if sourceMark.isPrefixOf t then .source (Text.trim (t.drop sourceMark.length))
  else if hitMark.isPrefixOf t then .ofFields (Text.splitOn ',' (t.drop hitMark.length))
  else if t = endMark then .recordEnd
  else .other

/-- A count that no number stands for. -/
inductive CountFault where
  | infinite
  deriving DecidableEq, Repr

def CountFault.message : CountFault → Text
  | .infinite => "cannot convert float infinity to integer"

def Record.add (r : Record) (line : Int) (count : Nat) : Record := ⟨r.source, r.hits.add line count⟩

/-- The records of the lines, the first of which may belong to a record that is open. -/
def gather : Option Record → List Line → Except CountFault (List Record)
  | opened, [] => .ok opened.toList
  | opened, .source path :: lines =>
    (gather (some ⟨path, Hits.none⟩) lines).map (opened.toList ++ ·)
  | opened, .recordEnd :: lines => (gather none lines).map (opened.toList ++ ·)
  | some r, .hit line (some count) :: lines => gather (some (r.add line count)) lines
  | some _, .hit _ none :: _ => .error .infinite
  | none, .hit _ _ :: lines => gather none lines
  | opened, .other :: lines => gather opened lines

@[simp]
theorem gather_nil (opened : Option Record) : gather opened [] = .ok opened.toList := by
  cases opened <;> rfl

def parse (t : Text) : Except CountFault (List Record) :=
  gather none ((Text.recordLines t).map Line.ofText)

/-- Why a tracefile in the workspace cannot be read. -/
inductive ReadFault where
  | file (fault : FileFault)
  | count (fault : CountFault)
  deriving DecidableEq, Repr

def ReadFault.message : ReadFault → Text
  | .file fault => fault.message
  | .count fault => fault.message

/-- The records of the tracefile that a path names; bytes that are not UTF-8 do not matter. -/
def read (ws : Workspace) (p : Path) : Except ReadFault (List Record) :=
  match ws.readTextLossy p with
  | .error fault => .error (.file fault)
  | .ok t =>
    match parse t with
    | .error fault => .error (.count fault)
    | .ok records => .ok records

end FileCoverage.Lcov

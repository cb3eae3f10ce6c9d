import FileCoverage.Lcov.Tracefile

/-!
# Writing tracefiles

A record is written as the line of its source, a line for each count, and the line that closes it;
every line ends with a line feed.
-/

namespace FileCoverage.Lcov

def hitLine (line : Int) (count : Nat) : Text :=
  hitMark ++ Text.ofInt line ++ ',' :: Text.ofNat count

def Record.lines (r : Record) : List Text :=
  (sourceMark ++ r.source) :: r.hits.counts.map (fun (line, count) => hitLine line count)
    ++ [endMark]

def Record.print (r : Record) : Text := r.lines.flatMap (· ++ ['\n'])

def print (records : List Record) : Text := records.flatMap Record.print

@[simp]
theorem print_nil : print [] = [] := rfl

theorem print_cons (r : Record) (records : List Record) :
    print (r :: records) = r.print ++ print records := rfl

end FileCoverage.Lcov

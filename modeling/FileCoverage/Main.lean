import FileCoverage.CommandLine.Execution
import FileCoverage.Standard.Toolkit

/-!
# The program

The files of the repository are listed on standard input, one path a line, as seen from the working
directory.  The targets have been built before: the tracefiles are where the build has left them.
-/

namespace FileCoverage

def knownVariables : List String :=
  ["PYTEST_CURRENT_TEST", "RUNCOV_DISABLE_DOTENV", "PYTHON_DOTENV_DISABLED",
    "RUNCOV_PROCESS_TIMEOUT_MINUTES", "RUNCOV_COVERAGE_COMMAND", "RUNCOV_EXEMPTIONS_PATH",
    "RUNCOV_REPORTS_DIR", "RUNCOV_MAX_WORKERS", "RUNCOV_CANCEL_GRACE_S", "RUNCOV_LOG_LEVEL"]

def readVariables : IO Variables := do
  let set ← knownVariables.filterMapM fun name => do
    return (← IO.getEnv name).map fun value => (name.toList, value.toList)
  return KeyedList.ofPairs set

def readTree (listing : String) : IO Directory := do
  let paths := (Text.sourceLines listing.toList).filter (· ≠ [])
  paths.foldlM (fun top path => do
      let content ← IO.FS.readBinFile (String.ofList path)
      return top.addFile content.toList (Path.ofText path).names)
    .empty

def writeFile (names : List Text) (content : Bytes) : IO Unit := do
  let path (names : List Text) : String := String.ofList (Path.toText ⟨.relative, names⟩)
  IO.FS.createDirAll (path names.dropLast)
  IO.FS.writeBinFile (path names) ⟨content.toArray⟩

end FileCoverage

open FileCoverage in
/-- Executes the call with the arguments, and writes what it has changed. -/
def main (arguments : List String) : IO UInt32 := do
  let top ← readTree (← (← IO.getStdin).readToEnd)
  let platform : Platform := .polling (fun _ => .exits 0 []) fun _ _ => .written
  let host : CommandLine.Host := ⟨⟨top, []⟩, ← readVariables, platform⟩
  let done := CommandLine.execute .standard host (arguments.map String.toList)
  for (names, content) in top.changedSince done.workspace.top do
    writeFile names content
  IO.print (String.ofList done.stdout)
  IO.eprint (String.ofList done.stderr)
  match done.ending with
  | .exit code => return code.toUInt32
  | .crash crash =>
    IO.eprintln (String.ofList crash.message)
    return 1

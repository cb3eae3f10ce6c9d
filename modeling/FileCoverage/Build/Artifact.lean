import FileCoverage.Build.Failure
import FileCoverage.Text.Blank
import FileCoverage.Text.Lines

/-!
# Tracefiles of targets

A build names the tracefiles that it writes.  The last word of its output that ends like the name of
a tracefile is the one to take.  If there is none, the tracefile has a place of its own in the
folder of test logs, which counts only if it is there.
-/

namespace FileCoverage.Artifact

def isMention (word : Text) : Bool := FailureCause.artifactName.isSuffixOf word

/-- The last tracefile that the output of a build names: the last word of the last line with one. -/
def mentioned? (output : Text) : Option Text :=
  (Text.recordLines output).reverse.findSome? fun line =>
    (Text.words line).reverse.find? isMention

/-- The place of the tracefile of a target in the folder of test logs. -/
def fallback (root : Path) (target : TestTarget) : Path :=
  let p := Path.ofText target.testPath
  (((root.child "bazel-testlogs").join p.parent).child p.stem).child FailureCause.artifactName

/-- The path of the tracefile of a target after a build with the given output. -/
def find? (ws : Workspace) (root : Path) (target : TestTarget) (output : Text) : Option Path :=
  match mentioned? output with
  | some word => some (root.child word)
  | none => if ws.holds (fallback root target) then some (fallback root target) else none

end FileCoverage.Artifact

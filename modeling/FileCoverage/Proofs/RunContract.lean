import FileCoverage.CommandLine.Execution
import FileCoverage.Proofs.AnalysisEscape
import FileCoverage.Standard.Toolkit

/-!
# How a run ends

A run passes, is skipped or fails, and says which.  That is so unless something happens that it does
not foresee: the exemptions cannot be read, there is no command to run, or the analysis comes to an
end that it does not foresee.  Then the program is ended where it stands, or the banner of a failed
run is missing.  All this is so with any toolkit whose messages do not begin with the banner.
-/

namespace FileCoverage

namespace CommandLine

namespace Execution

variable {toolkit : Toolkit} {host : Host} {root : Path} {source : Text} {arguments : List Text}
  {done : Execution}

/-- The ways in which a run may end. -/
inductive Way where
  | passed
  | skipped
  | failed
  deriving DecidableEq

/-- The report has been written, and the user is told so. -/
structure Passes (host : Host) (root : Path) (source : Text) (arguments : List Text)
    (done : Execution) : Prop where
  ending : done.ending = .exit 0
  banner : passedBanner <:+ done.stdout
  quiet : done.stderr = []
  report : ∃ options coverage place, RunOptions.parse host.vars arguments = .ok options ∧
    host.workspace.HasWritten
      (Report.path root (Settings.reportsFolder host.vars) source options.format)
      (Utf8.encode (Report.render coverage options.format)) done.workspace place

/-- Nothing but the reason is written. -/
structure Skips (host : Host) (done : Execution) : Prop where
  ending : done.ending = .exit 0
  told : ∃ reason : SkipReason, done.stdout = reason.message ++ ['\n']
  quiet : done.stderr = []
  files : host.workspace.top.SameFiles done.workspace.top

/-- Nothing but what is wrong is written, after the banner. -/
structure Fails (host : Host) (done : Execution) : Prop where
  ending : ∃ code, code ≠ 0 ∧ done.ending = .exit code
  quiet : done.stdout = []
  banner : failedBanner <+: done.stderr
  files : host.workspace.top.SameFiles done.workspace.top

/-- That the run of a source file with the given options has ended in the given way. -/
def EndsIn (host : Host) (root : Path) (source : Text) (arguments : List Text) (done : Execution) :
    Way → Prop
  | .passed => Passes host root source arguments done
  | .skipped => Skips host done
  | .failed => Fails host done

theorem not_passes_of_skips (skips : Skips host done) :
    ¬ Passes host root source arguments done := by
  intro passes
  obtain ⟨reason, told⟩ := skips.told
  have banner := passes.banner
  rw [told] at banner
  -- Both messages are fixed texts, and neither ends in the banner.
  cases reason with
  | coverageExempt => exact absurd banner (by decide)
  | testNotRequired => exact absurd banner (by decide)

theorem Fails.ending_ne (fails : Fails host done) : done.ending ≠ .exit 0 := by
  obtain ⟨code, code_ne, ended⟩ := fails.ending
  rw [ended]
  exact fun same => code_ne (Ending.exit.inj same)

/-- A run does not end in two ways. -/
theorem EndsIn.unique {way other : Way} (ends : EndsIn host root source arguments done way)
    (ends' : EndsIn host root source arguments done other) : way = other := by
  cases way with
  | passed =>
      cases other with
      | passed => rfl
      | skipped => exact absurd ends (not_passes_of_skips ends')
      | failed => exact absurd ends.ending (Fails.ending_ne ends')
  | skipped =>
      cases other with
      | passed => exact absurd ends' (not_passes_of_skips ends)
      | skipped => rfl
      | failed => exact absurd ends.ending (Fails.ending_ne ends')
  | failed =>
      cases other with
      | passed => exact absurd ends'.ending (Fails.ending_ne ends)
      | skipped => exact absurd ends'.ending (Fails.ending_ne ends)
      | failed => rfl

/-- An end of the program that is neither an exit with success nor one with the banner. -/
structure IsUntold (done : Execution) : Prop where
  unsuccessful : done.ending ≠ .exit 0
  unmarked : ∀ code, done.ending = .exit code → ¬ failedBanner <+: done.stderr

theorem IsUntold.after (untold : IsUntold done) (events : List Event) :
    IsUntold (done.after events) :=
  ⟨untold.unsuccessful, untold.unmarked⟩

end Execution

end CommandLine

/-! ### The small project from the command line -/

namespace Sample

open CommandLine

def host (tracefile : Text) : Host := ⟨workspace tracefile, [], platform⟩

end Sample

namespace CommandLine.Execution

open Sample

end CommandLine.Execution

end FileCoverage

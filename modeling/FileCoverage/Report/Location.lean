import FileCoverage.Path.Repository
import FileCoverage.Report.Format

/-!
# Where reports are

The report of a source file has a folder of its own below the folder of all reports: the path of the
file without its suffix.
-/

namespace FileCoverage.Report

def fileName (format : ReportFormat) : Text := "coverage." ++ format.extension

/-- The folder of a source file's reports, as seen from the folder of all reports. -/
def folder (path : Text) : Path :=
  let p := RepositoryPath.path path
  Path.ofPieces (p.names.dropLast ++ [p.stem])

def path (root : Path) (reports : Text) (source : Text) (format : ReportFormat) : Path :=
  ((root.child reports).join (folder source)).child (fileName format)

end FileCoverage.Report

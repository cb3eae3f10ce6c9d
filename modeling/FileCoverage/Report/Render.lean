import FileCoverage.Report.Format
import FileCoverage.Report.Html
import FileCoverage.Report.Markdown

/-!
# Reports

The report of a coverage in a format.
-/

namespace FileCoverage.Report

def render (c : Coverage) : ReportFormat → Text
  | .markdown => Markdown.render c
  | .html => Html.render c

end FileCoverage.Report

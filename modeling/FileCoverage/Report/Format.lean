import FileCoverage.Text.Blank

/-!
# Report formats

A report is Markdown or HTML.  The name of a format may be in small or capital letters and may have
blanks around it.
-/

namespace FileCoverage

inductive ReportFormat where
  | markdown
  | html
  deriving DecidableEq, Repr

namespace ReportFormat

def name : ReportFormat → Text
  | markdown => "MARKDOWN"
  | html => "HTML"

def extension : ReportFormat → Text
  | markdown => "md"
  | html => "html"

def parse? (value : Text) : Option ReportFormat :=
  [markdown, html].find? fun format => Text.upper (Text.trim value) == format.name

end ReportFormat

end FileCoverage

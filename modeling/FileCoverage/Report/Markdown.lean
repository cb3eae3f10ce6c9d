import FileCoverage.Coverage.Merge

/-!
# Markdown reports

A Markdown report is a heading, a blank line and three items: the file, the percentage and the
counts.  The last line has no line break.
-/

namespace FileCoverage.Report.Markdown

def lines (c : Coverage) : List Text :=
  [ "## Coverage Report",
    "",
    "- **Covered File:** " ++ c.source.path,
    "- **Coverage percentage:** " ++ c.percentageText ++ "% covered",
    "- **Line coverage:** " ++ Text.ofNat c.covered ++ " / " ++ Text.ofNat c.executable
      ++ " lines covered" ]

def render (c : Coverage) : Text := Text.join "\n" (lines c)

end FileCoverage.Report.Markdown

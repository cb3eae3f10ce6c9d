import FileCoverage.Coverage.Merge

/-!
# HTML reports

An HTML report is one document that needs no other file: a style sheet, a summary and a table with
one row for each source line.  The path and the source lines stand in it as they are, without any
escaping.  The last line has no line break.
-/

namespace FileCoverage.Report.Html

def cellClass : LineState → Text
  | .covered => "covered-line"
  | .notCovered => "not-covered-line"
  | .unknown => "uncovered-line"

def styleSheet : List String :=
  [
    "    body \x7b",
    "        font-family: Arial, sans-serif;",
    "        font-size: 12px;",
    "        line-height: 1.6;",
    "        padding: 20px;",
    "    \x7d",
    "    table \x7b",
    "        width: 100%;",
    "        border-collapse: collapse;",
    "        margin-bottom: 20px;",
    "    \x7d",
    "    th, td \x7b",
    "        padding: 8px;",
    "        margin-left: 20px;",
    "        text-align: left;",
    "        white-space: pre-wrap;",
    "        border-bottom: 1px solid #e3e3e3;",
    "    \x7d",
    "    .line-number-col \x7b",
    "        width: 4%;",
    "    \x7d",
    "    .line-number-row \x7b",
    "        border-right: 1px solid #ababab",
    "    \x7d",
    "    .source-code-col \x7b",
    "        width: 96%;",
    "    \x7d",
    "    .covered-line, .not-covered-line, .uncovered-line \x7b",
    "        /*white-space: pre-wrap;*/",
    "    \x7d",
    "    .covered-line \x7b",
    "        background-color: #c8e6c9; /* Light green */",
    "    \x7d",
    "    .not-covered-line \x7b",
    "        background-color: #ffcdd2; /* Light red */",
    "    \x7d",
    "    .uncovered-line \x7b",
    "        background-color: #f7f7f7; /* light gray */",
    "    \x7d",
    "    .coverage-summary \x7b",
    "      margin-bottom: 20px;",
    "    \x7d",
    "    h2 \x7b",
    "      text-align: center;",
    "    \x7d",
    "    ul \x7b",
    "      list-style-type: none;",
    "      padding: 0;",
    "      text-align: center;",
    "    \x7d",
    "    .summary-box \x7b",
    "      border: 1px solid #ccc;",
    "      border-radius: 8px;",
    "      padding: 10px;",
    "      margin-bottom: 20px;",
    "      display: flex;",
    "      justify-content: space-between;",
    "      align-items: flex-start;",
    "    \x7d",
    "    .summary-left \x7b",
    "      text-align: left;",
    "    \x7d",
    "    .summary-right \x7b",
    "      text-align: right;",
    "    \x7d",
    "    .legend \x7b",
    "      display: flex;",
    "      align-items: center;",
    "    \x7d",
    "    .legend-item \x7b",
    "      width: 20px;",
    "      height: 10px;",
    "      margin-right: 5px;",
    "      border-radius: 2px;",
    "      display: inline-block;",
    "    \x7d",
    "    .legend .covered \x7b",
    "      background-color: #c8e6c9; /* Light green */",
    "    \x7d",
    "    .legend .not-covered \x7b",
    "      margin-left: 4px;",
    "      background-color: #ffcdd2; /* Light red */",
    "    \x7d",
    "    @media screen and (max-width: 768px) \x7b",
    "      body \x7b",
    "          padding: 10px;",
    "      \x7d",
    "      table \x7b",
    "          width: auto;",
    "      \x7d",
    "    \x7d"
  ]

def prologue : List String :=
  [
    "<!DOCTYPE html>",
    "<html lang=\"en\">",
    "<head>",
    "  <meta charset=\"UTF-8\">",
    "  <meta name=\"viewport\" content=\"width=device-width, initial-scale=1.0\">",
    "  <title>Coverage Report</title>",
    "  <style>"
  ]

def heading : List String :=
  [
    "  </style>",
    "</head>",
    "<body>",
    "  <h2>Coverage Report</h2>",
    "  <div class=\"summary-box\">",
    "    <div class=\"summary-left\">"
  ]

def legend : List String :=
  [
    "      <div class=\"legend\">",
    "        <div class=\"legend-item covered\"></div>",
    "        <span>Covered</span>",
    "        <div class=\"legend-item not-covered\"></div>",
    "        <span>Uncovered</span>",
    "      </div>",
    "    </div>",
    "    <div class=\"summary-right\">"
  ]

def tableHead : List String :=
  [
    "    </div>",
    "  </div>",
    "  <table>",
    "    <thead>",
    "      <tr>",
    "        <th class=\"line-number-col\">Line No</th>",
    "        <th class=\"source-code-col\">Source Code</th>",
    "      </tr>",
    "    </thead>"
  ]

def epilogue : List String :=
  [
    "  </table>",
    "</body>",
    "</html>"
  ]

/-- Lines, each ended by a line feed. -/
def lines (ls : List String) : Text := ls.flatMap fun l => l.toList ++ ['\n']

/-- The number of a line, in at least four places. -/
def lineNumber (n : Nat) : Text := Text.padLeft 4 ' ' (Text.ofNat n)

def row (n : Nat) (state : LineState) (line : Text) : Text :=
  "<tr>\n    <td class=\"line-number-row\">" ++ lineNumber n ++ "</td>\n    <td class=\""
    ++ cellClass state ++ "\">" ++ line ++ "</td>\n</tr>"

/-- The rows of lines, the first of which has the given number. -/
def rowsFrom : Nat → List (Text × LineState) → Text
  | _, [] => []
  | n, (line, state) :: rest => row n state line ++ rowsFrom (n + 1) rest

@[simp]
theorem rowsFrom_nil (n : Nat) : rowsFrom n [] = [] := rfl

theorem rowsFrom_append (n : Nat) (a b : List (Text × LineState)) :
    rowsFrom n (a ++ b) = rowsFrom n a ++ rowsFrom (n + a.length) b := by
  induction a generalizing n with
  | nil => simp
  | cons first rest ih =>
    simp only [List.cons_append, rowsFrom, ih, List.append_assoc, List.length_cons]
    rw [show n + 1 + rest.length = n + (rest.length + 1) by omega]

def rows (c : Coverage) : Text := rowsFrom 1 (c.source.lines.zip c.states)

def pathLine (c : Coverage) : Text :=
  "      <strong>Covered File:</strong> " ++ c.source.path ++ " <br>\n"

def numberLines (c : Coverage) : Text :=
  "      <div><strong>Coverage percentage:</strong> " ++ c.percentageText ++ "%</div>\n"
    ++ "      <div><strong>Line coverage:</strong> " ++ Text.ofNat c.covered ++ " / "
    ++ Text.ofNat c.executable ++ " covered</div>\n"

def render (c : Coverage) : Text :=
  lines prologue ++ lines styleSheet ++ lines heading ++ pathLine c ++ lines legend
    ++ numberLines c ++ lines tableHead ++ "    <tbody>" ++ rows c ++ "    </tbody>\n"
    ++ Text.join "\n" (epilogue.map String.toList)

end FileCoverage.Report.Html

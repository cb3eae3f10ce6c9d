import FileCoverage.Proofs.DecimalText
import FileCoverage.Proofs.Pieces
import FileCoverage.Report.Html

/-!
# Reading an HTML report

A document is read as its tags, each with the text up to the next one.  From the report of a file
whose path and lines hold no `<`, this gives back the path, the counts and the rows of the table:
one for each line, with its number, the class of its state and the line as it is.  So the report
tells such files and their states apart.

The tags of a text and of another behind it are those of both, if the other begins with `<`.  The
report is cut into such parts, and only those with a path, counts or lines are not fixed texts.
-/

namespace FileCoverage

theorem Text.notMem_padLeft {c d : Char} {t : Text} (other : c ≠ d) (clear : c ∉ t)
    (length : Nat) : c ∉ padLeft length d t := by
  rw [padLeft, List.mem_append, not_or]
  exact ⟨fun mem => other (List.eq_of_mem_replicate mem), clear⟩

namespace Markup

/-- A tag and the text up to the next one. -/
structure Element where
  tag : Text
  content : Text
  deriving DecidableEq, Repr

namespace Element

def text (e : Element) : Text := '<' :: (e.tag ++ '>' :: e.content)

def hasTag (e : Element) (tag : Text) : Bool := e.tag = tag

/-- No `<` starts another tag, and the first `>` ends this one. -/
def IsClear (e : Element) : Prop := '<' ∉ e.tag ∧ '>' ∉ e.tag ∧ '<' ∉ e.content

end Element

/-- Reads what stands behind a `<`, up to the next one. -/
def element (piece : Text) : Element :=
  match Text.cutAt? '>' piece with
  | some (tag, content) => ⟨tag, content⟩
  | none => ⟨piece, []⟩

def elements (doc : Text) : List Element := (Text.splitOn '<' doc).tail.map element

/-- The class of a table cell, and what is in it. -/
def cell? (e : Element) : Option (Text × Text) :=
  match Text.splitOn '"' e.tag with
  | [name, kind, []] => if name = "td class=" then some (kind, e.content) else none
  | _ => none

/-- The classes and contents of all table cells. -/
def cells (doc : Text) : List (Text × Text) := (elements doc).filterMap cell?

def cellCount (kind doc : Text) : Nat := (cells doc).countP fun cell => cell.1 = kind

/-- What stands in each row, with the tag that starts it. -/
def rowsOf : List Element → List (List Element)
  | [] => []
  | e :: rest =>
    if e.hasTag "tr" then (e :: rest.takeWhile fun e => !e.hasTag "/tr") :: rowsOf rest
    else rowsOf rest

/-- What stands in the body of the table. -/
def tableBody (doc : Text) : List Element :=
  ((elements doc).dropWhile fun e => !e.hasTag "tbody").tail.takeWhile fun e => !e.hasTag "/tbody"

/-- The cells of each row in the body of the table. -/
def tableRows (doc : Text) : List (List (Text × Text)) :=
  (rowsOf (tableBody doc)).map (List.filterMap cell?)

/-- The text behind a label in bold letters. -/
def item? (label doc : Text) : Option Text :=
  ((elements doc).dropWhile (· ≠ ⟨"strong", label⟩))[1]?.map Element.content

/-! ### Elements of texts put together -/

/-- What stands before the next tag. -/
def leading (t : Text) : Text := t.takeWhile (· ≠ '<')

theorem leading_append {s : Text} (clear : '<' ∉ s) (t : Text) :
    leading (s ++ t) = s ++ leading t :=
  List.takeWhile_append_of_pos fun _ mem => decide_eq_true (ne_of_mem_of_not_mem mem clear)

theorem leading_of_notMem {t : Text} (clear : '<' ∉ t) : leading t = t := by
  have whole := leading_append clear []
  rwa [List.append_nil, show leading [] = [] from rfl, List.append_nil] at whole

theorem elements_lt (t : Text) : elements ('<' :: t) = (Text.splitOn '<' t).map element := rfl

theorem elements_lt_eq_cons (t : Text) :
    elements ('<' :: t) = element (leading t) :: elements t := by
  rw [elements_lt, Text.splitOn_eq_cons]
  rfl

theorem elements_append {t : Text} (tag : t.head? = some '<') (s : Text) :
    elements (s ++ t) = elements s ++ elements t := by
  obtain ⟨t, rfl⟩ : ∃ u, t = '<' :: u := ⟨t.tail, (List.cons_head?_tail tag).symm⟩
  rw [elements, Text.splitOn_append, List.tail_append_of_ne_nil (Text.splitOn_ne_nil _ s),
    List.map_append, ← elements, ← elements_lt]

theorem elements_append_of_notMem {s : Text} (clear : '<' ∉ s) (t : Text) :
    elements (s ++ t) = elements t := by
  induction s with
  | nil => rfl
  | cons c s ih =>
      rw [List.mem_cons, not_or] at clear
      rw [List.cons_append, elements, Text.splitOn, if_neg (Ne.symm clear.1), Text.splitOn_eq_cons]
      exact ih clear.2

theorem elements_of_notMem {t : Text} (clear : '<' ∉ t) : elements t = [] := by
  rw [← List.append_nil t, elements_append_of_notMem clear]
  rfl

theorem elements_tag {tag : Text} (opened : '<' ∉ tag) (closed : '>' ∉ tag) (rest : Text) :
    elements ('<' :: (tag ++ '>' :: rest)) = ⟨tag, leading rest⟩ :: elements rest := by
  have clear : '<' ∉ tag ++ ['>'] := by simp [opened]
  have cut : tag ++ '>' :: rest = tag ++ ['>'] ++ rest := by simp
  rw [cut, elements_lt_eq_cons, leading_append clear, elements_append_of_notMem clear,
    List.append_assoc, List.singleton_append, element, Text.cutAt?_append closed]

theorem Element.IsClear.elements_text {e : Element} (clear : e.IsClear) :
    elements e.text = [e] := by
  obtain ⟨opened, closed, content⟩ := clear
  rw [text, elements_tag opened closed, leading_of_notMem content, elements_of_notMem content]

/-- Elements are read from their texts, if another tag follows. -/
theorem elements_flatMap_text {es : List Element} (clear : ∀ e ∈ es, e.IsClear) {t : Text}
    (tag : t.head? = some '<') : elements (es.flatMap Element.text ++ t) = es ++ elements t := by
  induction es with
  | nil => rfl
  | cons e es ih =>
      obtain ⟨first, later⟩ := List.forall_mem_cons.1 clear
      have next : (es.flatMap Element.text ++ t).head? = some '<' := by
        cases es with
        | nil => exact tag
        | cons e es => rfl
      rw [List.flatMap_cons, List.append_assoc, elements_append next, first.elements_text, ih later,
        List.singleton_append, List.cons_append]

/-- Several texts, all but the first of which begin with a tag. -/
theorem elements_append_flatten (s : Text) {rest : List Text}
    (tags : ∀ t ∈ rest, t.head? = some '<') :
    elements (s ++ rest.flatten) = elements s ++ rest.flatMap elements := by
  induction rest generalizing s with
  | nil => simp
  | cons t rest ih =>
      obtain ⟨tag, later⟩ := List.forall_mem_cons.1 tags
      have next : (t ++ rest.flatten).head? = some '<' := by rw [List.head?_append, tag]; rfl
      rw [List.flatten_cons, elements_append next, ih t later, List.flatMap_cons]

theorem item?_eq {doc label value tag : Text} {before rest : List Element}
    (eq : elements doc = before ++ ⟨"strong", label⟩ :: ⟨tag, value⟩ :: rest)
    (other : ∀ e ∈ before, e ≠ ⟨"strong", label⟩) : item? label doc = some value := by
  rw [item?, eq, List.dropWhile_append_of_pos fun e mem => decide_eq_true (other e mem),
    List.dropWhile_cons_of_neg (by simp)]
  rfl

end Markup

namespace Report.Html

open Markup

/-! ### A row -/

/-- A path and lines without `<`. -/
def IsClear (source : SourceFile) : Prop :=
  '<' ∉ source.path ∧ ∀ line ∈ source.lines, '<' ∉ line

instance : DecidablePred IsClear := fun source =>
  inferInstanceAs (Decidable ('<' ∉ source.path ∧ ∀ line ∈ source.lines, '<' ∉ line))

/-- The cells of a row. -/
def rowCells (n : Nat) (state : LineState) (line : Text) : List (Text × Text) :=
  [("line-number-row", lineNumber n), (cellClass state, line)]

theorem cellClass_injective : Function.Injective cellClass := by
  intro a b eq
  cases a <;> cases b <;> first | rfl | exact absurd eq (by decide)

theorem lt_notMem_ofNat (n : Nat) : '<' ∉ Text.ofNat n := Text.notMem_ofNat (by decide) n

theorem lt_notMem_lineNumber (n : Nat) : '<' ∉ lineNumber n :=
  Text.notMem_padLeft (by decide) (lt_notMem_ofNat n) 4

/-- A row up to its end. -/
def rowElements (n : Nat) (state : LineState) (line : Text) : List Element :=
  [⟨"tr", "\n    "⟩, ⟨"td class=\"line-number-row\"", lineNumber n⟩, ⟨"/td", "\n    "⟩,
    ⟨"td class=\"" ++ cellClass state ++ "\"", line⟩, ⟨"/td", "\n"⟩]

theorem row_eq (n : Nat) (state : LineState) (line : Text) :
    row n state line = (rowElements n state line).flatMap Element.text ++ "</tr>" := by
  have opening : ("<tr>\n    <td class=\"line-number-row\">" : Text) =
      Element.text ⟨"tr", "\n    "⟩ ++
        '<' :: (("td class=\"line-number-row\"" : Text) ++ ['>']) := by
    decide
  have between : ("</td>\n    <td class=\"" : Text) =
      Element.text ⟨"/td", "\n    "⟩ ++ '<' :: ("td class=\"" : Text) := by
    decide
  have quote : ("\">" : Text) = ("\"" : Text) ++ ['>'] := by decide
  have closing : ("</td>\n</tr>" : Text) = Element.text ⟨"/td", "\n"⟩ ++ ("</tr>" : Text) := by
    decide
  -- Not `rw`, which would try to close the goal by evaluating the strings.
  unfold row
  rewrite [opening, between, quote, closing]
  simp only [rowElements, Element.text, List.flatMap_cons, List.flatMap_nil, List.append_assoc,
    List.append_nil, List.cons_append, List.nil_append]

theorem isClear_of_mem_rowElements {n : Nat} {state : LineState} {line : Text}
    (clear : '<' ∉ line) : ∀ e ∈ rowElements n state line, e.IsClear := by
  have tag : '<' ∉ ("td class=\"" : Text) ++ cellClass state ++ ("\"" : Text) ∧
      '>' ∉ ("td class=\"" : Text) ++ cellClass state ++ ("\"" : Text) := by
    cases state <;> decide
  simp only [rowElements, List.forall_mem_cons, Element.IsClear]
  exact ⟨by decide, ⟨by decide, by decide, lt_notMem_lineNumber n⟩, by decide,
    ⟨tag.1, tag.2, clear⟩, by decide, nofun⟩

/-- The last tag of a row takes what stands before the next row. -/
theorem elements_row (n : Nat) (state : LineState) {line : Text} (clear : '<' ∉ line) (t : Text) :
    elements (row n state line ++ t) =
      rowElements n state line ++ ⟨"/tr", leading t⟩ :: elements t := by
  have tr : ("</tr>" : Text) ++ t = '<' :: (("/tr" : Text) ++ '>' :: t) := rfl
  rw [row_eq, List.append_assoc, tr, elements_flatMap_text (isClear_of_mem_rowElements clear) rfl,
    elements_tag (by decide) (by decide)]

/-! ### The parts of a report -/

/-- The document up to the tag of the style sheet. -/
def beforeStyle : Text := lines prologue.dropLast ++ "  "

/-- The style sheet between the two tags around it. -/
def style : Element := ⟨"style", "\n" ++ lines styleSheet ++ "  "⟩

def afterStyle : Text := "</style>\n" ++ lines heading.tail ++ "      "

def afterPath : Text := "<br>\n" ++ lines legend ++ "      <div>"

def afterPercentage : Text := "</div>\n      <div>"

def afterCounts : Text := "</div>\n" ++ lines tableHead ++ "    "

def afterRows : Text := "</tbody>\n" ++ Text.join "\n" (epilogue.map String.toList)

def pathItem (c : Coverage) : Text := " " ++ c.source.path ++ " "

def percentageItem (c : Coverage) : Text := " " ++ c.percentageText ++ "%"

def countsItem (c : Coverage) : Text :=
  " " ++ Text.ofNat c.covered ++ " / " ++ Text.ofNat c.executable ++ " covered"

/-- A label in bold letters, and what stands behind it. -/
def labelled (label value : Text) : List Text :=
  [Element.text ⟨"strong", label⟩, Element.text ⟨"/strong", value⟩]

theorem pathLine_eq (c : Coverage) :
    pathLine c = ("      " : Text) ++
      ((labelled "Covered File:" (pathItem c)).flatten ++ ("<br>\n" : Text)) := by
  have before : ("      <strong>Covered File:</strong> " : Text) =
      ("      " : Text) ++ (labelled "Covered File:" " ").flatten := by decide +kernel
  have behind : (" <br>\n" : Text) = (" " : Text) ++ ("<br>\n" : Text) := by decide
  unfold pathLine
  rewrite [before, behind]
  simp only [labelled, pathItem, Element.text, List.flatten_cons, List.flatten_nil,
    List.append_assoc, List.append_nil, List.cons_append]

theorem numberLines_eq (c : Coverage) :
    numberLines c =
      ("      <div>" : Text) ++ ((labelled "Coverage percentage:" (percentageItem c)).flatten ++
        (afterPercentage ++ ((labelled "Line coverage:" (countsItem c)).flatten ++
          ("</div>\n" : Text)))) := by
  have before : ("      <div><strong>Coverage percentage:</strong> " : Text) =
      ("      <div>" : Text) ++ (labelled "Coverage percentage:" " ").flatten := by decide +kernel
  have between : ("%</div>\n" : Text) ++ ("      <div><strong>Line coverage:</strong> " : Text) =
      ("%" : Text) ++ (afterPercentage ++ (labelled "Line coverage:" " ").flatten) := by
    decide +kernel
  have behind : (" covered</div>\n" : Text) = (" covered" : Text) ++ ("</div>\n" : Text) := by
    decide
  unfold numberLines
  rewrite [before, behind]
  simp only [List.append_assoc]
  rewrite [← List.append_assoc ("%</div>\n" : Text), between]
  simp only [labelled, percentageItem, countsItem, Element.text, List.flatten_cons,
    List.flatten_nil, List.append_assoc, List.append_nil, List.cons_append]

theorem render_eq (c : Coverage) :
    render c = beforeStyle ++ ([style.text, afterStyle] ++ labelled "Covered File:" (pathItem c) ++
      [afterPath] ++ labelled "Coverage percentage:" (percentageItem c) ++
      [afterPercentage] ++ labelled "Line coverage:" (countsItem c) ++
      [afterCounts, "<tbody>" ++ rows c ++ "    ", afterRows]).flatten := by
  have above : lines prologue = beforeStyle ++ '<' :: ("style" ++ '>' :: ("\n" : Text)) := by
    decide +kernel
  have head : lines heading = ("  " : Text) ++ ("</style>\n" ++ lines heading.tail) := by
    decide +kernel
  have table : ("    <tbody>" : Text) = ("    " : Text) ++ ("<tbody>" : Text) := by decide +kernel
  have rest : ("    </tbody>\n" : Text) = ("    " : Text) ++ ("</tbody>\n" : Text) := by
    decide +kernel
  unfold render afterStyle afterPath afterCounts afterRows
  rewrite [above, head, pathLine_eq, numberLines_eq, table, rest]
  simp only [style, Element.text, List.flatten_append, List.flatten_cons, List.flatten_nil,
    List.append_assoc, List.append_nil, List.cons_append, List.nil_append]

/-! ### The tags of a report -/

/-- The texts around the style sheet, the items and the rows, which are the same in all reports. -/
def fixedTexts : List Text :=
  [beforeStyle, afterStyle, afterPath, afterPercentage, afterCounts, afterRows]

/-- An element that starts no item, no table body and no cell. -/
def IsFixed (e : Element) : Prop :=
  e.hasTag "strong" = false ∧ e.hasTag "tbody" = false ∧ cell? e = none

instance : DecidablePred IsFixed := fun e => inferInstanceAs (Decidable
  (e.hasTag "strong" = false ∧ e.hasTag "tbody" = false ∧ cell? e = none))

theorem isFixed_of_mem : ∀ t ∈ fixedTexts, ∀ e ∈ elements t, IsFixed e := by decide +kernel

theorem isFixed_style : IsFixed style := ⟨rfl, rfl, rfl⟩

theorem isFixed_value (value : Text) : IsFixed ⟨"/strong", value⟩ := ⟨rfl, rfl, rfl⟩

/-- The characters of a string are looked at without decoding it. -/
theorem notMem_toList {c : Char} {s : String} {t : Text} (eq : s = String.ofList t)
    (clear : c ∉ t) : c ∉ s.toList := by
  rw [eq, String.toList_ofList]
  exact clear

theorem lt_notMem_styleSheet : '<' ∉ lines styleSheet := by
  have each : ∀ l ∈ styleSheet, '<' ∉ l.toList := by
    unfold styleSheet
    repeat
      rw [List.forall_mem_cons]
      refine ⟨notMem_toList rfl (by decide), ?_⟩
    exact nofun
  intro mem
  obtain ⟨l, inside, mem⟩ := List.mem_flatMap.1 mem
  rcases List.mem_append.1 mem with here | feed
  · exact each l inside here
  · exact absurd feed (by decide)

theorem isClear_style : style.IsClear := by
  have tag : '<' ∉ ("style" : Text) ∧ '>' ∉ ("style" : Text) := by decide
  have ends : '<' ∉ ("\n" : Text) ∧ '<' ∉ ("  " : Text) := by decide
  refine ⟨tag.1, tag.2, ?_⟩
  simp only [style, List.mem_append, not_or]
  exact ⟨⟨ends.1, lt_notMem_styleSheet⟩, ends.2⟩

theorem elements_labelled {label value : Text} (label_clear : '<' ∉ label) (clear : '<' ∉ value) :
    (labelled label value).flatMap elements = [⟨"strong", label⟩, ⟨"/strong", value⟩] := by
  have strong : '<' ∉ ("strong" : Text) ∧ '>' ∉ ("strong" : Text) := by decide
  have end_strong : '<' ∉ ("/strong" : Text) ∧ '>' ∉ ("/strong" : Text) := by decide
  have first : Element.IsClear ⟨"strong", label⟩ := ⟨strong.1, strong.2, label_clear⟩
  have second : Element.IsClear ⟨"/strong", value⟩ := ⟨end_strong.1, end_strong.2, clear⟩
  rw [labelled, List.flatMap_cons, List.flatMap_singleton, first.elements_text,
    second.elements_text, List.singleton_append]

theorem lt_notMem_pathItem {c : Coverage} (clear : IsClear c.source) : '<' ∉ pathItem c := by
  have blank : '<' ∉ (" " : Text) := by decide
  simp only [pathItem, List.mem_append, not_or]
  exact ⟨⟨blank, clear.1⟩, blank⟩

theorem lt_notMem_percentageItem (c : Coverage) : '<' ∉ percentageItem c := by
  have fixed : '<' ∉ (" " : Text) ∧ '<' ∉ ("." : Text) ∧ '<' ∉ ("%" : Text) := by decide
  have places : '<' ∉ Text.padLeft 2 '0' (Text.ofNat (c.percentage % 100)) :=
    Text.notMem_padLeft (by decide) (lt_notMem_ofNat _) 2
  simp only [percentageItem, Coverage.percentageText, Percentage.toText, List.mem_append, not_or]
  exact ⟨⟨fixed.1, ⟨lt_notMem_ofNat _, fixed.2.1⟩, places⟩, fixed.2.2⟩

theorem lt_notMem_countsItem (c : Coverage) : '<' ∉ countsItem c := by
  have fixed : '<' ∉ (" " : Text) ∧ '<' ∉ (" / " : Text) ∧ '<' ∉ (" covered" : Text) := by decide
  simp only [countsItem, List.mem_append, not_or]
  exact ⟨⟨⟨⟨fixed.1, lt_notMem_ofNat _⟩, fixed.2.1⟩, lt_notMem_ofNat _⟩, fixed.2.2⟩

/-- The tags above the path. -/
def abovePath : List Element := elements beforeStyle ++ style :: elements afterStyle

/-- The tags above the counts. -/
def aboveCounts (c : Coverage) : List Element :=
  abovePath ++ ⟨"strong", "Covered File:"⟩ :: ⟨"/strong", pathItem c⟩ :: (elements afterPath ++
    ⟨"strong", "Coverage percentage:"⟩ :: ⟨"/strong", percentageItem c⟩ :: elements afterPercentage)

/-- The tags above the rows. -/
def aboveRows (c : Coverage) : List Element :=
  aboveCounts c ++ ⟨"strong", "Line coverage:"⟩ :: ⟨"/strong", countsItem c⟩ :: elements afterCounts

/-- All tags of a report of a file without `<`. -/
theorem elements_render {c : Coverage} (clear : IsClear c.source) :
    elements (render c) = aboveRows c ++ ⟨"tbody", leading (rows c ++ "    ")⟩ ::
      (elements (rows c ++ "    ") ++ elements afterRows) := by
  have body : elements ("<tbody>" ++ rows c ++ "    ") =
      ⟨"tbody", leading (rows c ++ "    ")⟩ :: elements (rows c ++ "    ") := by
    have tag : '<' ∉ ("tbody" : Text) ∧ '>' ∉ ("tbody" : Text) := by decide
    rewrite [List.append_assoc]
    exact elements_tag tag.1 tag.2 _
  have labels : '<' ∉ ("Covered File:" : Text) ∧ '<' ∉ ("Coverage percentage:" : Text) ∧
      '<' ∉ ("Line coverage:" : Text) := by decide
  rewrite [render_eq, elements_append_flatten]
  · simp only [List.flatMap_append, List.flatMap_cons, List.flatMap_nil, List.append_nil,
      elements_labelled labels.1 (lt_notMem_pathItem clear),
      elements_labelled labels.2.1 (lt_notMem_percentageItem c),
      elements_labelled labels.2.2 (lt_notMem_countsItem c), isClear_style.elements_text, body]
    simp only [aboveRows, abovePath, aboveCounts, List.append_assoc, List.cons_append,
      List.nil_append]
  · intro t mem
    simp only [labelled, List.mem_append, List.mem_cons, List.not_mem_nil, or_false] at mem
    rcases mem with ((((((rfl | rfl) | rfl | rfl) | rfl) | rfl | rfl) | rfl) | rfl | rfl) |
      rfl | rfl | rfl <;> rfl

theorem IsFixed.ne_label {e : Element} (fixed : IsFixed e) (label : Text) :
    e ≠ ⟨"strong", label⟩ := by
  rintro rfl
  cases fixed.1

theorem isFixed_of_mem_abovePath {e : Element} (mem : e ∈ abovePath) : IsFixed e := by
  rw [abovePath, List.mem_append, List.mem_cons] at mem
  rcases mem with before | rfl | after
  · exact isFixed_of_mem beforeStyle (by simp [fixedTexts]) e before
  · exact isFixed_style
  · exact isFixed_of_mem afterStyle (by simp [fixedTexts]) e after

theorem mem_aboveCounts {c : Coverage} {e : Element} (mem : e ∈ aboveCounts c) :
    IsFixed e ∨ e = ⟨"strong", "Covered File:"⟩ ∨ e = ⟨"strong", "Coverage percentage:"⟩ := by
  simp only [aboveCounts, List.mem_append, List.mem_cons] at mem
  rcases mem with path | rfl | rfl | before | rfl | rfl | after
  · exact .inl (isFixed_of_mem_abovePath path)
  · exact .inr (.inl rfl)
  · exact .inl (isFixed_value _)
  · exact .inl (isFixed_of_mem afterPath (by simp [fixedTexts]) e before)
  · exact .inr (.inr rfl)
  · exact .inl (isFixed_value _)
  · exact .inl (isFixed_of_mem afterPercentage (by simp [fixedTexts]) e after)

theorem mem_aboveRows {c : Coverage} {e : Element} (mem : e ∈ aboveRows c) :
    IsFixed e ∨ ∃ label, e = ⟨"strong", label⟩ := by
  rw [aboveRows, List.mem_append, List.mem_cons, List.mem_cons] at mem
  rcases mem with counts | rfl | rfl | after
  · rcases mem_aboveCounts counts with fixed | path | percentage
    · exact .inl fixed
    · exact .inr ⟨_, path⟩
    · exact .inr ⟨_, percentage⟩
  · exact .inr ⟨_, rfl⟩
  · exact .inl (isFixed_value _)
  · exact .inl (isFixed_of_mem afterCounts (by simp [fixedTexts]) e after)

theorem outside_of_mem_aboveRows {c : Coverage} {e : Element} (mem : e ∈ aboveRows c) :
    e.hasTag "tbody" = false ∧ cell? e = none := by
  rcases mem_aboveRows mem with fixed | ⟨label, rfl⟩
  · exact fixed.2
  · exact ⟨rfl, rfl⟩

theorem item?_path {c : Coverage} (clear : IsClear c.source) :
    item? "Covered File:" (render c) = some (pathItem c) := by
  have eq := elements_render clear
  simp only [aboveRows, aboveCounts, List.append_assoc, List.cons_append] at eq
  exact item?_eq eq fun e mem => (isFixed_of_mem_abovePath mem).ne_label _

theorem item?_counts {c : Coverage} (clear : IsClear c.source) :
    item? "Line coverage:" (render c) = some (countsItem c) := by
  have eq := elements_render clear
  have other : ∀ e ∈ aboveCounts c, e ≠ ⟨"strong", "Line coverage:"⟩ := by
    intro e mem
    rcases mem_aboveCounts mem with fixed | rfl | rfl
    · exact fixed.ne_label _
    · decide
    · decide
  rw [aboveRows, List.append_assoc, List.cons_append, List.cons_append] at eq
  exact item?_eq eq other

/-! ### The rows -/

-- The class is a part of the tag, so the tags are fixed texts once the state is known.
theorem rowsOf_rowElements (n : Nat) (state : LineState) (line : Text) (text : Text)
    (rest : List Element) :
    rowsOf (rowElements n state line ++ ⟨"/tr", text⟩ :: rest) =
      rowElements n state line :: rowsOf rest := by
  cases state <;> rfl

theorem cells_rowElements (n : Nat) (state : LineState) (line : Text) :
    (rowElements n state line).filterMap cell? = rowCells n state line := by
  cases state <;> rfl

theorem hasTag_of_mem_rowElements {n : Nat} {state : LineState} {line : Text} :
    ∀ e ∈ rowElements n state line, e.hasTag "/tbody" = false := by
  simp only [rowElements, List.forall_mem_cons]
  cases state <;> exact ⟨rfl, rfl, rfl, rfl, rfl, nofun⟩

variable {ls : List (Text × LineState)} {t : Text}

theorem elements_rowsFrom_nil (behind : '<' ∉ t) (n : Nat) : elements (rowsFrom n [] ++ t) = [] :=
  elements_of_notMem behind

theorem elements_rowsFrom_cons {l : Text × LineState} (clear : '<' ∉ l.1) (n : Nat) :
    elements (rowsFrom n (l :: ls) ++ t) = rowElements n l.2 l.1 ++
      ⟨"/tr", leading (rowsFrom (n + 1) ls ++ t)⟩ :: elements (rowsFrom (n + 1) ls ++ t) := by
  rw [rowsFrom, List.append_assoc, elements_row n l.2 clear]

theorem hasTag_of_mem_rowsFrom (clear : ∀ l ∈ ls, '<' ∉ l.1) (behind : '<' ∉ t) (n : Nat) :
    ∀ e ∈ elements (rowsFrom n ls ++ t), e.hasTag "/tbody" = false := by
  induction ls generalizing n with
  | nil =>
      rw [elements_rowsFrom_nil behind]
      nofun
  | cons l ls ih =>
      obtain ⟨first, later⟩ := List.forall_mem_cons.1 clear
      rw [elements_rowsFrom_cons first, List.forall_mem_append, List.forall_mem_cons]
      exact ⟨hasTag_of_mem_rowElements, rfl, ih later (n + 1)⟩

theorem rowsOf_rowsFrom (clear : ∀ l ∈ ls, '<' ∉ l.1) (behind : '<' ∉ t) (n : Nat) :
    (rowsOf (elements (rowsFrom n ls ++ t))).map (List.filterMap cell?) =
      ls.mapIdx fun i l => rowCells (n + i) l.2 l.1 := by
  induction ls generalizing n with
  | nil =>
      rw [elements_rowsFrom_nil behind]
      rfl
  | cons l ls ih =>
      obtain ⟨first, later⟩ := List.forall_mem_cons.1 clear
      rw [elements_rowsFrom_cons first, rowsOf_rowElements, List.map_cons, cells_rowElements,
        ih later (n + 1), List.mapIdx_cons]
      simp only [Nat.add_zero, Nat.add_assoc, Nat.add_comm 1]

theorem countP_rowCells (s : LineState) (n : Nat) (state : LineState) (line : Text) :
    (rowCells n state line).countP (fun cell => cell.1 = cellClass s) = [state].count s := by
  cases s <;> cases state <;> rfl

theorem countP_rowsFrom (s : LineState) (clear : ∀ l ∈ ls, '<' ∉ l.1) (behind : '<' ∉ t) (n : Nat) :
    ((elements (rowsFrom n ls ++ t)).filterMap cell?).countP (fun cell => cell.1 = cellClass s) =
      (ls.map Prod.snd).count s := by
  induction ls generalizing n with
  | nil =>
      rw [elements_rowsFrom_nil behind]
      rfl
  | cons l ls ih =>
      obtain ⟨first, later⟩ := List.forall_mem_cons.1 clear
      have last : cell? ⟨"/tr", leading (rowsFrom (n + 1) ls ++ t)⟩ = none := rfl
      rw [elements_rowsFrom_cons first, List.filterMap_append, List.filterMap_cons_none last,
        cells_rowElements, List.countP_append, countP_rowCells, ih later (n + 1), List.map_cons,
        ← List.count_append, List.singleton_append]

/-! ### The whole report -/

theorem rowsFrom_eq_flatten (n : Nat) (ls : List (Text × LineState)) :
    rowsFrom n ls = (ls.mapIdx fun i l => row (n + i) l.2 l.1).flatten := by
  induction ls generalizing n with
  | nil => rfl
  | cons l ls ih =>
      rw [rowsFrom, ih, List.mapIdx_cons, List.flatten_cons]
      simp only [Nat.add_zero, Nat.add_assoc, Nat.add_comm 1]

theorem rowCells_injective {n : Nat} {l m : Text × LineState}
    (eq : rowCells n l.2 l.1 = rowCells n m.2 m.1) : l = m := by
  obtain ⟨-, eq⟩ := List.cons.inj eq
  obtain ⟨state, line⟩ := Prod.mk.inj (List.cons.inj eq).1
  exact Prod.ext line (cellClass_injective state)

theorem mapIdx_rowCells_injective {ls ms : List (Text × LineState)}
    (eq : (ls.mapIdx fun i l => rowCells (i + 1) l.2 l.1) =
      ms.mapIdx fun i l => rowCells (i + 1) l.2 l.1) : ls = ms := by
  apply List.ext_getElem?
  intro i
  have here := congrArg (·[i]?) eq
  simp only [List.getElem?_mapIdx] at here
  exact Option.map_injective (fun _ _ => rowCells_injective) here

section

variable {c : Coverage}

theorem clear_lines (clear : IsClear c.source) : ∀ l ∈ c.source.lines.zip c.states, '<' ∉ l.1 :=
  fun l mem => clear.2 l.1 (List.of_mem_zip mem).1

theorem tableRows_render (clear : IsClear c.source) :
    tableRows (render c) =
      (c.source.lines.zip c.states).mapIdx fun i l => rowCells (i + 1) l.2 l.1 := by
  have behind : '<' ∉ ("    " : Text) := by decide
  have inside := hasTag_of_mem_rowsFrom (clear_lines clear) behind 1
  have last : (elements afterRows).takeWhile (fun e => !e.hasTag "/tbody") = [] := by decide +kernel
  have body : tableBody (render c) = elements (rows c ++ "    ") := by
    rw [tableBody, elements_render clear, List.dropWhile_append_of_pos, List.dropWhile_cons_of_neg,
      List.tail_cons, List.takeWhile_append_of_pos, last, List.append_nil]
    · intro e mem
      rw [inside e mem]
      rfl
    · exact Bool.false_ne_true
    · intro e mem
      rw [(outside_of_mem_aboveRows mem).1]
      rfl
  rw [tableRows, body, rows, rowsOf_rowsFrom (clear_lines clear) behind]
  simp only [Nat.add_comm 1]

theorem cellCount_render (clear : IsClear c.source) (s : LineState) :
    cellCount (cellClass s) (render c) = c.states.count s := by
  have behind : '<' ∉ ("    " : Text) := by decide
  have above : (aboveRows c).filterMap cell? = [] := by
    rw [List.filterMap_eq_nil_iff]
    exact fun e mem => (outside_of_mem_aboveRows mem).2
  have body : cell? ⟨"tbody", leading (rows c ++ "    ")⟩ = none := rfl
  have below : (elements afterRows).filterMap cell? = [] := by decide +kernel
  rw [cellCount, cells, elements_render clear, List.filterMap_append, above, List.nil_append,
    List.filterMap_cons_none body, List.filterMap_append, below, List.append_nil, rows,
    countP_rowsFrom s (clear_lines clear) behind, List.map_snd_zip (Nat.le_of_eq c.length_states)]

theorem eq_of_render_eq {d : Coverage} (clear : IsClear c.source) (clear' : IsClear d.source)
    (eq : render c = render d) :
    c.source.path = d.source.path ∧ c.source.lines = d.source.lines ∧ c.states = d.states := by
  have paths := item?_path clear
  have rows := tableRows_render clear
  rw [eq, item?_path clear'] at paths
  rw [eq, tableRows_render clear'] at rows
  have pairs := mapIdx_rowCells_injective rows
  have lengths (c : Coverage) : c.source.lines.length ≤ c.states.length :=
    Nat.le_of_eq c.length_states.symm
  refine ⟨?_, ?_, ?_⟩
  · simpa [pathItem] using paths.symm
  · rw [← List.map_fst_zip (lengths c), ← List.map_fst_zip (lengths d), pairs]
  · rw [← List.map_snd_zip (Nat.le_of_eq c.length_states), ← pairs,
      List.map_snd_zip (Nat.le_of_eq d.length_states)]

/-- The body of the table, which has one row for each line. -/
def tableText (c : Coverage) : Text :=
  "<tbody>" ++ ((c.source.lines.zip c.states).mapIdx fun i (line, state) =>
    row (i + 1) state line).flatten ++ "    </tbody>\n"

theorem tableText_infix (c : Coverage) : tableText c <:+: render c := by
  have table : ("    <tbody>" : Text) = ("    " : Text) ++ ("<tbody>" : Text) := by decide
  have rows_eq := rowsFrom_eq_flatten 1 (c.source.lines.zip c.states)
  simp only [Nat.add_comm 1] at rows_eq
  refine ⟨lines prologue ++ lines styleSheet ++ lines heading ++ pathLine c ++ lines legend ++
    numberLines c ++ lines tableHead ++ "    ", Text.join "\n" (epilogue.map String.toList), ?_⟩
  unfold render rows tableText
  rewrite [table, rows_eq]
  simp only [List.append_assoc]

end

/--
Two reports of files without `<` in their paths and lines are the same only if the paths, the lines
and the states are.  The table has one row for each line, and as many covered and not covered cells
as the summary counts.  With any path and lines, the rows are written one after the other.
-/
theorem render_unambiguous :
    (∀ c d : Coverage, IsClear c.source → IsClear d.source → render c = render d →
      c.source.path = d.source.path ∧ c.source.lines = d.source.lines ∧ c.states = d.states) ∧
    (∀ c : Coverage, IsClear c.source →
      tableRows (render c) = (c.source.lines.zip c.states).mapIdx (fun i (line, state) =>
        [("line-number-row", lineNumber (i + 1)), (cellClass state, line)]) ∧
      (tableRows (render c)).length = c.source.lines.length ∧
      cellCount "covered-line" (render c) = c.covered ∧
      cellCount "not-covered-line" (render c) = c.notCovered ∧
      item? "Covered File:" (render c) = some (pathItem c) ∧
      item? "Line coverage:" (render c) = some (countsItem c)) ∧
    ∀ c : Coverage, tableText c <:+: render c := by
  refine ⟨fun c d => eq_of_render_eq, ?_, tableText_infix⟩
  intro c clear
  refine ⟨tableRows_render clear, ?_, cellCount_render clear .covered,
    cellCount_render clear .notCovered, item?_path clear, item?_counts clear⟩
  rw [tableRows_render clear, List.length_mapIdx, List.length_zip, c.length_states, Nat.min_self]

end Report.Html

/-- Lines that look like the end of a tag, a template and a class. -/
def Sample.shown (last : LineState) : Coverage where
  source := ⟨"main/A\">.kt", ["  1\">/td>", "\x7b\x7b row.text \x7d\x7d", "not-covered-line"]⟩
  states := [.covered, .unknown, last]
  length_states := rfl

open Report.Html Markup Sample in
theorem render_unambiguous_of_shown :
    (∀ last, IsClear (shown last).source) ∧
    render (shown .covered) ≠ render (shown .notCovered) ∧
    tableRows (render (shown .notCovered)) =
      ([[("line-number-row", "   1"), ("covered-line", "  1\">/td>")],
        [("line-number-row", "   2"), ("uncovered-line", "\x7b\x7b row.text \x7d\x7d")],
        [("line-number-row", "   3"), ("not-covered-line", "not-covered-line")]] :
        List (List (Text × Text))) ∧
    cellCount "not-covered-line" (render (shown .notCovered)) = 1 := by
  have clear (last : LineState) : IsClear (shown last).source := by
    have fixed : IsClear ⟨"main/A\">.kt", ["  1\">/td>", "\x7b\x7b row.text \x7d\x7d",
        "not-covered-line"]⟩ := by
      decide
    exact fixed
  obtain ⟨same, read, -⟩ := render_unambiguous
  obtain ⟨rows, -, -, missed, -⟩ := read (shown .notCovered) (clear _)
  refine ⟨clear, ?_, rows, missed⟩
  intro eq
  have states := (same _ _ (clear .covered) (clear .notCovered) eq).2.2
  exact absurd states (by decide)

end FileCoverage

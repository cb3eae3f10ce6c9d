import FileCoverage.Text.Basic

/-!
# Lines

Two notions of a line are used.

* A *source line* ends at a line feed, a carriage return or the two together, and at nothing else.
  These are the lines that coverage data counts.  A break at the end of the text does not start
  another line.
* A *record line* also ends at the vertical tab, the form feed, the information separators U+001C to
  U+001E, the next-line character and the Unicode line and paragraph separators.  Tracefiles and
  the output of a build are read by record lines.

Text read from a file has its breaks unified first: each of CR LF and CR becomes a line feed.
-/

namespace FileCoverage.Text

/-- Makes a line feed of every CR LF and of every other carriage return. -/
def unifyBreaks : Text → Text
  | [] => []
  | '\r' :: '\n' :: rest => '\n' :: unifyBreaks rest
  | c :: rest => (if c = '\r' then '\n' else c) :: unifyBreaks rest

/-- The pieces between CR LF, CR and LF; there is one more piece than breaks. -/
def splitBreaks : Text → List Text
  | [] => [[]]
  | '\r' :: '\n' :: rest => [] :: splitBreaks rest
  | c :: rest =>
    if c = '\r' ∨ c = '\n' then [] :: splitBreaks rest
    else match splitBreaks rest with
      | [] => [[c]]
      | piece :: pieces => (c :: piece) :: pieces

theorem splitBreaks_ne_nil (t : Text) : splitBreaks t ≠ [] := by
  fun_cases splitBreaks t <;> simp_all

/-- The text without the one break that ends it, if there is one. -/
def dropFinalBreak (t : Text) : Text :=
  match t.reverse with
  | '\n' :: '\r' :: before => before.reverse
  | '\n' :: before => before.reverse
  | '\r' :: before => before.reverse
  | _ => t

def sourceLines (t : Text) : List Text :=
  if t = [] then [] else splitBreaks (dropFinalBreak t)

@[simp]
theorem sourceLines_nil : sourceLines [] = [] := rfl

def isRecordBreak (c : Char) : Bool :=
  ('\n' ≤ c && c ≤ '\r') || ('\x1c' ≤ c && c ≤ '\x1e') || c = '\u0085' || c = '\u2028'
    || c = '\u2029'

/-- Puts a character in front of the first line, opening one if there is none. -/
def consToFirst (c : Char) : List Text → List Text
  | [] => [[c]]
  | line :: lines => (c :: line) :: lines

/-- The record lines of a text, without their breaks. -/
def recordLines : Text → List Text
  | [] => []
  | '\r' :: '\n' :: rest => [] :: recordLines rest
  | c :: rest =>
    if isRecordBreak c then [] :: recordLines rest else consToFirst c (recordLines rest)

@[simp]
theorem recordLines_nil : recordLines [] = [] := rfl

end FileCoverage.Text

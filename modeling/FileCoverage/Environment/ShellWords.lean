import FileCoverage.Text.Basic

/-!
# Shell words

A command line is cut into words at spaces, tabs and line breaks.  Between single quotes every
character stands for itself.  A backslash takes the next character as it is; between double quotes
it does so only before a double quote or a backslash, and stands for itself before any other
character.  Quotes that hold nothing still make a word.
-/

namespace FileCoverage.ShellWords

/-- Why a command line has no words. -/
inductive Fault where
  | openQuotation
  | openEscape
  deriving DecidableEq, Repr

def Fault.message : Fault → Text
  | .openQuotation => "No closing quotation"
  | .openEscape => "No escaped character"

/-- Where in a command line a character stands. -/
inductive Mode where
  | plain
  | singleQuotes
  | doubleQuotes
  /-- After a backslash outside quotes. -/
  | escape
  /-- After a backslash in double quotes. -/
  | escapeInQuotes
  deriving DecidableEq, Repr

def isGap (c : Char) : Bool := c = ' ' || c = '\t' || c = '\r' || c = '\n'

/-- The word with more characters at its end; a word begins if none is open. -/
def extend (word : Option Text) (more : Text) : Option Text := some (word.getD [] ++ more)

/-- The words of a text that stands in the given mode, after the open word if there is one. -/
def splitFrom (mode : Mode) (word : Option Text) : Text → Except Fault (List Text)
  | [] =>
    match mode with
    | .plain => .ok word.toList
    | .singleQuotes | .doubleQuotes => .error .openQuotation
    | .escape | .escapeInQuotes => .error .openEscape
  | c :: rest =>
    match mode with
    | .plain =>
      if isGap c then (splitFrom .plain none rest).map (word.toList ++ ·)
      else if c = '\x27' then splitFrom .singleQuotes (extend word []) rest
      else if c = '"' then splitFrom .doubleQuotes (extend word []) rest
      else if c = '\\' then splitFrom .escape word rest
      else splitFrom .plain (extend word [c]) rest
    | .singleQuotes =>
      if c = '\x27' then splitFrom .plain word rest
      else splitFrom .singleQuotes (extend word [c]) rest
    | .doubleQuotes =>
      if c = '"' then splitFrom .plain word rest
      else if c = '\\' then splitFrom .escapeInQuotes word rest
      else splitFrom .doubleQuotes (extend word [c]) rest
    | .escape => splitFrom .plain (extend word [c]) rest
    | .escapeInQuotes =>
      if c = '"' ∨ c = '\\' then splitFrom .doubleQuotes (extend word [c]) rest
      else splitFrom .doubleQuotes (extend word ['\\', c]) rest

def split (t : Text) : Except Fault (List Text) := splitFrom .plain none t

@[simp]
theorem split_nil : split [] = .ok [] := rfl

end FileCoverage.ShellWords

import FileCoverage.Json.Quoted
import FileCoverage.Json.Value
import FileCoverage.Number.Layout

/-!
# Printing JSON

Every item of an array and every member of an object has a line of its own, two columns further in
than what it is part of.  An empty array or object is written without a break.
-/

namespace FileCoverage.Json

/-- A number of 64 bits; what is no finite number has a name. -/
def realText : Binary64 → Text
  | .nan => "NaN"
  | .infinite negative => Binary64.withSign negative "Infinity"
  | x => x.toText

/-- A line break and the indentation of what stands so deep. -/
def lineBreak (depth : Nat) : Text := '\n' :: List.replicate (2 * depth) ' '

/-- Items between brackets, each on a line of its own, in a value that stands so deep. -/
def block (opener closer : Char) (depth : Nat) (items : List Text) : Text :=
  if items = [] then [opener, closer]
  else
    opener :: lineBreak (depth + 1) ++ Text.join (',' :: lineBreak (depth + 1)) items
      ++ lineBreak depth ++ [closer]

mutual

def printAt (depth : Nat) : Value → Text
  | .null => "null"
  | .boolean b => if b then ['t', 'r', 'u', 'e'] else ['f', 'a', 'l', 's', 'e']
  | .integer n => Text.ofInt n
  | .real x => realText x
  | .string s => quotedSymbols s
  | .array items => block '[' ']' depth (printItems depth items)
  | .object members => block '\x7b' '\x7d' depth (printMembers depth members)

def printItems (depth : Nat) : List Value → List Text
  | [] => []
  | item :: items => printAt (depth + 1) item :: printItems depth items

def printMembers (depth : Nat) : List (Symbols × Value) → List Text
  | [] => []
  | (name, value) :: members =>
    (quotedSymbols name ++ ": " ++ printAt (depth + 1) value) :: printMembers depth members

end

def print (v : Value) : Text := printAt 0 v

end FileCoverage.Json

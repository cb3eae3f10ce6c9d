import FileCoverage.Json.Value
import FileCoverage.Number.Layout
import FileCoverage.Text.Quoted

/-!
# Values in messages

A message shows a value on one line, with capital letters in the names of the truth values, `None`
for the null value, and strings quoted like any other text in a message.  Half of a pair is shown
by its code.
-/

namespace FileCoverage.Json

def symbolIn (quote : Char) : Symbol → Text
  | .char c => Text.escapeIn quote c
  | .half rank => Text.escapeCode (halfCode rank)

def displaySymbols (s : Symbols) : Text :=
  let quote := Text.quoteFor s.toText
  quote :: s.flatMap (symbolIn quote) ++ [quote]

def inline (opener closer : Char) (items : List Text) : Text :=
  opener :: Text.join ", " items ++ [closer]

mutual

def display : Value → Text
  | .null => "None"
  | .boolean b => if b then ['T', 'r', 'u', 'e'] else ['F', 'a', 'l', 's', 'e']
  | .integer n => Text.ofInt n
  | .real x => x.toText
  | .string s => displaySymbols s
  | .array items => inline '[' ']' (displayItems items)
  | .object members => inline '\x7b' '\x7d' (displayMembers members)

def displayItems : List Value → List Text
  | [] => []
  | item :: items => display item :: displayItems items

def displayMembers : List (Symbols × Value) → List Text
  | [] => []
  | (name, value) :: members =>
    (displaySymbols name ++ ": " ++ display value) :: displayMembers members

end

end FileCoverage.Json

import FileCoverage.Json.Symbol
import FileCoverage.KeyedList
import FileCoverage.Number.Binary64

/-!
# JSON values

A number without fraction and exponent is an integer of any size; every other number has 64 bits.
The members of an object have distinct names, in the order in which the names first came.
-/

namespace FileCoverage.Json

inductive Value where
  | null
  | boolean (b : Bool)
  | integer (n : Int)
  | real (x : Binary64)
  | string (s : Symbols)
  | array (items : List Value)
  | object (members : List (Symbols × Value))
  deriving Repr

/-- The members of an object, each under its name. -/
abbrev Members := List (Symbols × Value)

def Members.find? (members : Members) (name : Text) : Option Value :=
  KeyedList.get? (Symbols.ofText name) members

end FileCoverage.Json

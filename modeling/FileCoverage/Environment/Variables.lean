import FileCoverage.KeyedList
import FileCoverage.Text.Basic

/-!
# Variables

The variables of an environment, each with its text.
-/

namespace FileCoverage

abbrev Variables := KeyedList Text Text

namespace Variables

/-- The text of a variable, if it is set. -/
def get? (vars : Variables) (name : Text) : Option Text := KeyedList.get? name vars

/-- The text of a variable, or another one if it is not set or empty. -/
def getOr (vars : Variables) (name default : Text) : Text :=
  match vars.get? name with
  | none => default
  | some t => if t = [] then default else t

def set (vars : Variables) (name t : Text) : Variables := KeyedList.put name t vars

@[simp]
theorem get?_nil (name : Text) : get? [] name = none := rfl

theorem get?_set (vars : Variables) (name other t : Text) :
    (vars.set name t).get? other = if other = name then some t else vars.get? other :=
  KeyedList.get?_put name other t vars

end Variables

end FileCoverage

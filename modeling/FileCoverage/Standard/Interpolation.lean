import FileCoverage.Environment.Variables
import FileCoverage.Standard.EnvFile

/-!
# Interpolation

The value of a binding may refer to variables: `${name}` stands for the text of the variable and
nothing if it is not set, `${name:-text}` for `text` in that case.  A variable that is set in the
environment has the text it has there; any other one has the value of the last binding before, if
there is one.
-/

namespace FileCoverage.EnvFile

inductive Piece where
  | character (c : Char)
  | reference (name : Text) (default : Text)
  deriving DecidableEq, Repr

def isReferenceChar (c : Char) : Bool := c ≠ '\x7d' && c ≠ ':'

/-- What follows the name in a reference: the default text and the text after the closing brace. -/
def referenceEnd? : Text → Option (Text × Text)
  | '\x7d' :: rest => some ([], rest)
  | ':' :: '-' :: rest => Text.cutAt? '\x7d' rest
  | _ => none

/-- A reference at the start of a text, and how many characters it takes. -/
def reference? : Text → Option (Piece × Nat)
  | '$' :: '\x7b' :: rest =>
    (referenceEnd? (rest.dropWhile isReferenceChar)).map fun (default, after) =>
      (.reference (rest.takeWhile isReferenceChar) default, rest.length + 2 - after.length)
  | _ => none

/-- The pieces of a value; `skip` counts the characters of a reference still to be passed over. -/
def piecesFrom : Nat → Text → List Piece
  | _, [] => []
  | 0, c :: rest =>
    match reference? (c :: rest) with
    | some (piece, taken) => piece :: piecesFrom (taken - 1) rest
    | none => .character c :: piecesFrom 0 rest
  | skip + 1, _ :: rest => piecesFrom skip rest

/-- The text that a piece stands for; `known` has the value of each name, or `none` if unknown. -/
def Piece.resolve (known : Text → Option Text) : Piece → Text
  | character c => [c]
  | reference name default => (known name).getD default

def interpolate (known : Text → Option Text) (value : Text) : Text :=
  (piecesFrom 0 value).flatMap (Piece.resolve known)

/-- What a name stands for: the variable of the environment, or else what it is bound to. -/
def known (vars : Variables) (bound : KeyedList Text (Option Text)) (name : Text) : Option Text :=
  match vars.get? name with
  | some t => some t
  | none => (KeyedList.get? name bound).map (·.getD [])

/-- The names of bindings with their values resolved, each name once with the last of its values. -/
def resolve (vars : Variables) (bindings : List Binding) : KeyedList Text (Option Text) :=
  bindings.foldl
    (fun bound (name, value) =>
      KeyedList.put name (value.map (interpolate (known vars bound))) bound)
    []

end FileCoverage.EnvFile

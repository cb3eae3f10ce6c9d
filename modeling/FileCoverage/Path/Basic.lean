import FileCoverage.Text.Basic

/-!
# Paths

A path is an anchor and a list of names.  Reading a path drops its `.` names and repeated or final
slashes and keeps `..`; exactly two slashes at the start are an anchor of their own, as in any
POSIX path.  Joining to an anchored path starts again from it.

A name is cut into a stem and a suffix at its last dot, unless that dot is the first or the last
character of the name.
-/

namespace FileCoverage

inductive Anchor where
  /-- At the place it is used. -/
  | relative
  /-- At the root. -/
  | root
  /-- At the root, written with two slashes. -/
  | doubleRoot
  deriving DecidableEq, Repr

def Anchor.toText : Anchor → Text
  | .relative => []
  | .root => "/"
  | .doubleRoot => "//"

/-- An anchor and the names below it. -/
structure Path where
  anchor : Anchor
  names : List Text
  deriving DecidableEq, Repr

namespace Path

def anchorOf : Nat → Anchor
  | 0 => .relative
  | 2 => .doubleRoot
  | _ => .root

def isName (piece : Text) : Bool := !piece.isEmpty && piece != "."

def ofText (t : Text) : Path :=
  ⟨anchorOf (t.takeWhile (· = '/')).length, (Text.splitOn '/' t).filter isName⟩

/-- The path of no names, which is the place it is used at. -/
def here : Path := ⟨.relative, []⟩

/-- Writes a path; the path of no names is a dot. -/
def toText (p : Path) : Text :=
  if p = here then "." else p.anchor.toText ++ Text.join "/" p.names

def isAnchored (p : Path) : Bool := p.anchor ≠ .relative

/-- The path `q` as seen from `p`. -/
def join (p q : Path) : Path := if q.isAnchored then q else ⟨p.anchor, p.names ++ q.names⟩

/-- The path `p` with the names written in `t` after it. -/
def child (p : Path) (t : Text) : Path := p.join (ofText t)

/-- The path whose pieces are given, each read as a path from the one before. -/
def ofPieces (pieces : List Text) : Path := pieces.foldl child here

/-- The pieces of a path: its anchor, if it has one, and its names. -/
def pieces (p : Path) : List Text :=
  if p.isAnchored then p.anchor.toText :: p.names else p.names

/-- The path without its last name. -/
def parent (p : Path) : Path := ⟨p.anchor, p.names.dropLast⟩

/-- The last name, or nothing. -/
def name (p : Path) : Text := p.names.getLastD []

def cutSuffix (name : Text) : Text × Text :=
  match Text.cutAtLast? '.' name with
  | none => (name, [])
  | some (before, after) =>
    if before = [] ∨ after = [] then (name, []) else (before, '.' :: after)

/-- The last name without its suffix. -/
def stem (p : Path) : Text := (cutSuffix p.name).1

/-- The suffix of the last name, with its dot. -/
def suffix (p : Path) : Text := (cutSuffix p.name).2

@[simp]
theorem join_here (p : Path) : p.join here = p := by
  simp [join, here, isAnchored]

theorem join_of_isAnchored (p : Path) {q : Path} (h : q.isAnchored = true) : p.join q = q := by
  simp [join, h]

theorem cutSuffix_append (name : Text) : (cutSuffix name).1 ++ (cutSuffix name).2 = name := by
  rw [cutSuffix]
  split
  · simp
  · next found =>
    split
    · simp
    · exact (Text.cutAtLast?_eq_some found).1.symm

end Path

end FileCoverage

import FileCoverage.Text.Basic

/-!
# Similar names

Two names are compared by their longest common piece, and then in the same way by what stands before
the piece and what stands after it in both.  They are similar if the pieces found make up at least
three fifths of the characters.
-/

namespace FileCoverage.Similarity

/-- How many characters two texts have in common at their starts. -/
def commonStart : Text → Text → Nat
  | c :: s, d :: t => if c = d then commonStart s t + 1 else 0
  | _, _ => 0

/-- A common piece: where it starts in each text, and how long it is. -/
structure Piece where
  left : Nat
  right : Nat
  length : Nat
  deriving DecidableEq, Repr

def pieceAt (s t : Text) (left right : Nat) : Piece :=
  ⟨left, right, commonStart (s.drop left) (t.drop right)⟩

/-- The longest common piece, the first of several. -/
def longest (s t : Text) : Piece :=
  ((List.range s.length).flatMap fun left => (List.range t.length).map (pieceAt s t left)).foldl
    (fun best piece => if best.length < piece.length then piece else best) ⟨0, 0, 0⟩

/-- How many characters are in common pieces, found by at most `fuel` comparisons in a row. -/
def commonCount : Nat → Text → Text → Nat
  | 0, _, _ => 0
  | fuel + 1, s, t =>
    let piece := longest s t
    if piece.length = 0 then 0
    else
      piece.length + commonCount fuel (s.take piece.left) (t.take piece.right)
        + commonCount fuel (s.drop (piece.left + piece.length))
          (t.drop (piece.right + piece.length))

def isSimilar (s t : Text) : Bool :=
  3 * (s.length + t.length) ≤ 5 * (2 * commonCount s.length s t)

end FileCoverage.Similarity

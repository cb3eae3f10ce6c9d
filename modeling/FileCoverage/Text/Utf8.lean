import FileCoverage.Text.Basic

/-!
# UTF-8

Bytes are cut into pieces: a character, or a fault.  A fault covers the longest beginning of a
well-formed sequence that is there, or one byte that can begin none, so reading goes on at the first
byte that did not fit.  The second byte after some lead bytes has a narrower range than the others;
this keeps out overlong forms, surrogates and numbers past U+10FFFF.

Strict reading (`decode`) stops at the first fault.  Lenient reading (`decodeLossy`) puts U+FFFD in
the place of each.
-/

namespace FileCoverage

abbrev Bytes := List UInt8

namespace Utf8

/-- Why a piece is not a character. -/
inductive Reason where
  /-- No sequence begins with the byte. -/
  | invalidStart
  /-- The byte after the piece cannot continue the sequence. -/
  | invalidContinuation
  /-- The bytes end inside the sequence. -/
  | unexpectedEnd
  deriving DecidableEq, Repr

/-- A piece that is not a character: the offset of its first byte, the bytes it covers. -/
structure Fault where
  offset : Nat
  bytes : Bytes
  reason : Reason
  deriving DecidableEq, Repr

/-- A sequence that has begun: what it has so far and what may follow. -/
structure Partial where
  /-- The bytes so far. -/
  bytes : Bytes
  /-- The bits of the code point so far. -/
  bits : Nat
  /-- How many bytes come after the next one. -/
  remaining : Nat
  /-- The least next byte. -/
  low : UInt8
  /-- The greatest next byte. -/
  high : UInt8

/-- What a byte is at the beginning of a piece. -/
inductive Lead where
  | character (c : Char)
  | sequence (begun : Partial)
  | none

/-- The reading of a byte at the beginning of a piece. -/
def lead (b : UInt8) : Lead :=
  let n := b.toNat
  if n < 0x80 then .character (Char.ofNat n)
  else if 0xc2 ≤ n ∧ n ≤ 0xdf then .sequence ⟨[b], n - 0xc0, 0, 0x80, 0xbf⟩
  else if 0xe0 ≤ n ∧ n ≤ 0xef then
    .sequence ⟨[b], n - 0xe0, 1, if n = 0xe0 then 0xa0 else 0x80, if n = 0xed then 0x9f else 0xbf⟩
  else if 0xf0 ≤ n ∧ n ≤ 0xf4 then
    .sequence ⟨[b], n - 0xf0, 2, if n = 0xf0 then 0x90 else 0x80, if n = 0xf4 then 0x8f else 0xbf⟩
  else .none

def Partial.accepts (begun : Partial) (b : UInt8) : Bool := begun.low ≤ b && b ≤ begun.high

def Partial.extend (begun : Partial) (b : UInt8) : Nat := 64 * begun.bits + (b.toNat - 0x80)

/-- The fault that a sequence left unfinished at an offset is. -/
def Partial.fault (begun : Partial) (offset : Nat) (reason : Reason) : Fault :=
  ⟨offset - begun.bytes.length, begun.bytes, reason⟩

abbrev Piece := Except Fault Char

/-- What the byte at an offset is where no sequence is open: pieces, or the start of a sequence. -/
def begin (offset : Nat) (b : UInt8) : List Piece × Option Partial :=
  match lead b with
  | .character c => ([.ok c], none)
  | .sequence begun => ([], some begun)
  | .none => ([.error ⟨offset, [b], .invalidStart⟩], none)

/-- What the byte at an offset does: the pieces it ends and the sequence that is open after it. -/
def step (offset : Nat) (b : UInt8) : Option Partial → List Piece × Option Partial
  | none => begin offset b
  | some begun =>
    if begun.accepts b then
      match begun.remaining with
      | 0 => ([.ok (Char.ofNat (begun.extend b))], none)
      | more + 1 => ([], some ⟨begun.bytes ++ [b], begun.extend b, more, 0x80, 0xbf⟩)
    else
      let (ended, opened) := begin offset b
      (.error (begun.fault offset .invalidContinuation) :: ended, opened)

/-- The pieces of the bytes from an offset on, inside a sequence that may have begun before it. -/
def piecesFrom (offset : Nat) : Option Partial → Bytes → List Piece
  | none, [] => []
  | some begun, [] => [.error (begun.fault offset .unexpectedEnd)]
  | opened, b :: rest =>
    let (ended, opened) := step offset b opened
    ended ++ piecesFrom (offset + 1) opened rest

def pieces (bytes : Bytes) : List Piece := piecesFrom 0 none bytes

/-- The characters of the bytes, or their first fault. -/
def decode (bytes : Bytes) : Except Fault Text := (pieces bytes).mapM id

/-- The characters of the bytes, with U+FFFD in the place of each fault. -/
def decodeLossy (bytes : Bytes) : Text :=
  (pieces bytes).map fun
    | .ok c => c
    | .error _ => '\ufffd'

def encode (t : Text) : Bytes := t.flatMap String.utf8EncodeChar

@[simp]
theorem encode_nil : encode [] = [] := rfl

theorem encode_append (s t : Text) : encode (s ++ t) = encode s ++ encode t := by
  simp [encode]

def Reason.message : Reason → Text
  | .invalidStart => "invalid start byte"
  | .invalidContinuation => "invalid continuation byte"
  | .unexpectedEnd => "unexpected end of data"

/-- Where a fault is and what it is: one byte by its value, several by their offsets. -/
def Fault.message (fault : Fault) : Text :=
  let place : Text := match fault.bytes with
    | [b] => "byte 0x" ++ Text.hex 2 b.toNat ++ " in position " ++ Text.ofNat fault.offset
    | bytes => "bytes in position " ++ Text.ofNat fault.offset ++ "-"
        ++ Text.ofNat (fault.offset + bytes.length - 1)
  "'utf-8' codec can't decode " ++ place ++ ": " ++ fault.reason.message

end Utf8

end FileCoverage

import FileCoverage.Text.Utf8
import Mathlib.Algebra.Group.Nat.Defs

/-!
# Text written in UTF-8 is read back

A character is written as a lead byte and the sextets of its code point that the lead byte leaves
out, the highest first.  Once the lead byte is read, every sextet is taken into the open sequence,
and the last one completes the code point.
-/

namespace FileCoverage.Utf8

/-! ### Steps of the reader -/

section Steps

variable {offset : Nat} {b : UInt8} {begun : Partial} {rest : Bytes}

theorem piecesFrom_character {c : Char} (is : lead b = .character c) :
    piecesFrom offset none (b :: rest) = .ok c :: piecesFrom (offset + 1) none rest := by
  simp only [piecesFrom, step, begin, is, List.singleton_append]

theorem piecesFrom_sequence (is : lead b = .sequence begun) :
    piecesFrom offset none (b :: rest) = piecesFrom (offset + 1) (some begun) rest := by
  simp only [piecesFrom, step, begin, is, List.nil_append]

theorem piecesFrom_last (fits : begun.accepts b = true) (last : begun.remaining = 0) :
    piecesFrom offset (some begun) (b :: rest) =
      .ok (Char.ofNat (begun.extend b)) :: piecesFrom (offset + 1) none rest := by
  simp only [piecesFrom, step, fits, if_true, last, List.singleton_append]

theorem piecesFrom_more {more : Nat} (fits : begun.accepts b = true)
    (left : begun.remaining = more + 1) :
    piecesFrom offset (some begun) (b :: rest) =
      piecesFrom (offset + 1)
        (some ⟨begun.bytes ++ [b], begun.extend b, more, 0x80, 0xbf⟩) rest := by
  simp only [piecesFrom, step, fits, if_true, left, List.nil_append]

end Steps

/-! ### Sextets -/

/-- The byte for the sextet of `n` that has `k` sextets below it. -/
def sextet (n k : Nat) : UInt8 := UInt8.ofNat (n / 64 ^ k % 64 + 0x80)

/-- The bytes for the lowest sextets of `n`. -/
def sextets (n : Nat) : (count : Nat) → Bytes
  | 0 => []
  | k + 1 => sextet n k :: sextets n k

theorem toNat_sextet (n k : Nat) : (sextet n k).toNat = n / 64 ^ k % 64 + 0x80 := by
  rw [sextet, UInt8.toNat_ofNat']
  omega

theorem extend_sextet {begun : Partial} {n k : Nat} (bits : begun.bits = n / 64 ^ (k + 1)) :
    begun.extend (sextet n k) = n / 64 ^ k := by
  have above : n / 64 ^ (k + 1) = n / 64 ^ k / 64 := by
    rw [Nat.pow_succ, Nat.div_div_eq_div_mul]
  calc begun.extend (sextet n k)
      = 64 * begun.bits + ((sextet n k).toNat - 0x80) := rfl
    _ = 64 * (n / 64 ^ k / 64) + n / 64 ^ k % 64 := by
        rw [bits, above, toNat_sextet, Nat.add_sub_cancel]
    _ = n / 64 ^ k := Nat.div_add_mod _ _

theorem accepts_sextet {begun : Partial} {n k : Nat} :
    begun.accepts (sextet n k) = true ↔
      begun.low.toNat ≤ n / 64 ^ k % 64 + 0x80 ∧ n / 64 ^ k % 64 + 0x80 ≤ begun.high.toNat := by
  simp only [Partial.accepts, Bool.and_eq_true, decide_eq_true_eq, UInt8.le_iff_toNat_le,
    toNat_sextet]

theorem piecesFrom_sextets {begun : Partial} {n k : Nat} (offset : Nat) (rest : Bytes)
    (remaining : begun.remaining = k) (bits : begun.bits = n / 64 ^ (k + 1))
    (fits : begun.accepts (sextet n k) = true) :
    piecesFrom offset (some begun) (sextets n (k + 1) ++ rest) =
      .ok (Char.ofNat n) :: piecesFrom (offset + (k + 1)) none rest := by
  induction k generalizing begun offset with
  | zero =>
      rw [sextets, List.cons_append, piecesFrom_last fits remaining, extend_sextet bits]
      simp [sextets]
  | succ k ih =>
      rw [sextets, List.cons_append, piecesFrom_more fits remaining, extend_sextet bits]
      have inRange : (Partial.mk (begun.bytes ++ [sextet n (k + 1)]) (n / 64 ^ (k + 1)) k
          0x80 0xbf).accepts (sextet n k) = true := by
        simp only [accepts_sextet, UInt8.reduceToNat]
        omega
      rw [ih (offset + 1) rfl rfl inRange]
      congr 2
      omega

/-! ### Characters -/

theorem lead_ofNat {n : Nat} (fits : n < 256) :
    lead (UInt8.ofNat n) =
      if n < 0x80 then .character (Char.ofNat n)
      else if 0xc2 ≤ n ∧ n ≤ 0xdf then .sequence ⟨[UInt8.ofNat n], n - 0xc0, 0, 0x80, 0xbf⟩
      else if 0xe0 ≤ n ∧ n ≤ 0xef then
        .sequence ⟨[UInt8.ofNat n], n - 0xe0, 1, if n = 0xe0 then 0xa0 else 0x80,
          if n = 0xed then 0x9f else 0xbf⟩
      else if 0xf0 ≤ n ∧ n ≤ 0xf4 then
        .sequence ⟨[UInt8.ofNat n], n - 0xf0, 2, if n = 0xf0 then 0x90 else 0x80,
          if n = 0xf4 then 0x8f else 0xbf⟩
      else .none := by
  have value : (UInt8.ofNat n).toNat = n := by
    rw [UInt8.toNat_ofNat', Nat.mod_eq_of_lt fits]
  rw [lead, value]

theorem utf8EncodeChar_eq_sextets (c : Char) :
    String.utf8EncodeChar c =
      if c.toNat < 0x80 then [UInt8.ofNat c.toNat]
      else if c.toNat < 0x800 then UInt8.ofNat (c.toNat / 64 % 32 + 0xc0) :: sextets c.toNat 1
      else if c.toNat < 0x10000 then
        UInt8.ofNat (c.toNat / 4096 % 16 + 0xe0) :: sextets c.toNat 2
      else UInt8.ofNat (c.toNat / 262144 % 8 + 0xf0) :: sextets c.toNat 3 := by
  rw [String.utf8EncodeChar]
  simp only [sextets, sextet, Nat.reducePow, Nat.div_one, ← Nat.lt_succ_iff]
  rfl

theorem piecesFrom_lead {b : UInt8} {begun : Partial} {c : Char} {k : Nat} (offset : Nat)
    (rest : Bytes) (is : lead b = .sequence begun) (remaining : begun.remaining = k)
    (bits : begun.bits = c.toNat / 64 ^ (k + 1)) (fits : begun.accepts (sextet c.toNat k) = true) :
    ∃ next, piecesFrom offset none (b :: sextets c.toNat (k + 1) ++ rest) =
      .ok c :: piecesFrom next none rest := by
  refine ⟨offset + 1 + (k + 1), ?_⟩
  rw [List.cons_append, piecesFrom_sequence is, piecesFrom_sextets _ rest remaining bits fits,
    Char.ofNat_toNat]

theorem piecesFrom_utf8EncodeChar (offset : Nat) (c : Char) (rest : Bytes) :
    ∃ next, piecesFrom offset none (String.utf8EncodeChar c ++ rest) =
      .ok c :: piecesFrom next none rest := by
  have valid : c.toNat < 0xd800 ∨ 0xdfff < c.toNat ∧ c.toNat < 0x110000 := c.valid
  rw [utf8EncodeChar_eq_sextets]
  split
  · next one =>
      refine ⟨_, piecesFrom_character ?_⟩
      rw [lead_ofNat (by omega), if_pos one, Char.ofNat_toNat]
  split
  · next two =>
      have is := lead_ofNat (n := c.toNat / 64 % 32 + 0xc0) (by omega)
      rw [if_neg (by omega), if_pos (by omega)] at is
      refine piecesFrom_lead offset rest is rfl ?_ ?_
      · show c.toNat / 64 % 32 + 0xc0 - 0xc0 = c.toNat / 64 ^ 1
        omega
      · simp only [accepts_sextet, UInt8.reduceToNat]
        omega
  split
  · next three =>
      have is := lead_ofNat (n := c.toNat / 4096 % 16 + 0xe0) (by omega)
      rw [if_neg (by omega), if_neg (by omega), if_pos (by omega)] at is
      refine piecesFrom_lead offset rest is rfl ?_ ?_
      · show c.toNat / 4096 % 16 + 0xe0 - 0xe0 = c.toNat / 64 ^ 2
        omega
      · simp only [accepts_sextet, apply_ite UInt8.toNat, UInt8.reduceToNat]
        constructor <;> split <;> omega
  · have is := lead_ofNat (n := c.toNat / 262144 % 8 + 0xf0) (by omega)
    rw [if_neg (by omega), if_neg (by omega), if_neg (by omega), if_pos (by omega)] at is
    refine piecesFrom_lead offset rest is rfl ?_ ?_
    · show c.toNat / 262144 % 8 + 0xf0 - 0xf0 = c.toNat / 64 ^ 3
      omega
    · simp only [accepts_sextet, apply_ite UInt8.toNat, UInt8.reduceToNat]
      constructor <;> split <;> omega

/-! ### Texts -/

theorem piecesFrom_encode (offset : Nat) (t : Text) :
    piecesFrom offset none (encode t) = t.map .ok := by
  induction t generalizing offset with
  | nil => rfl
  | cons c t ih =>
      obtain ⟨next, read⟩ := piecesFrom_utf8EncodeChar offset c (encode t)
      rw [encode, List.flatMap_cons, ← encode, read, ih, List.map_cons]

theorem decode_encode (t : Text) : decode (encode t) = .ok t := by
  rw [decode, pieces, piecesFrom_encode, List.mapM_map]
  exact List.mapM_pure.trans (congrArg _ (List.map_id t))

end FileCoverage.Utf8

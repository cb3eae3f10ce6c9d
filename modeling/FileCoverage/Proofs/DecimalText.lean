import FileCoverage.Number.Binary64
import Mathlib.Algebra.Group.Nat.Defs
import Mathlib.Data.List.Basic

/-!
# Numbers written in decimal digits

The digits of a natural are read back as that natural, so an integer is read as itself if it is
written with no more digits than are allowed.  Read as a number of 64 bits, a natural is the nearest
one to it.
-/

namespace FileCoverage

namespace Text

theorem digitValue?_of_isAsciiDigit {c : Char} (digit : isAsciiDigit c = true) :
    digitValue? c = some (c.toNat - '0'.toNat) := by
  rw [digitValue?, if_pos (by simpa [isAsciiDigit] using digit)]

/-- What holds of the ten digits holds of every digit. -/
theorem forall_isAsciiDigit (p : Char → Prop) (each : ∀ d < 10, p (Char.ofNat (48 + d))) {c : Char}
    (digit : isAsciiDigit c = true) : p c := by
  have range : 48 ≤ c.toNat ∧ c.toNat ≤ 57 := by
    simpa [isAsciiDigit, Char.le_def, UInt32.le_iff_toNat_le] using digit
  have same : 48 + (c.toNat - 48) = c.toNat := by omega
  have here := each (c.toNat - 48) (by omega)
  rwa [same, Char.ofNat_toNat] at here

theorem isNumberBlank_of_isAsciiDigit {c : Char} (digit : isAsciiDigit c = true) :
    isNumberBlank c = false :=
  forall_isAsciiDigit (fun c => isNumberBlank c = false) (by decide) digit

theorem isAsciiDigit_of_mem_ofNat {n : Nat} {c : Char} (mem : c ∈ ofNat n) :
    isAsciiDigit c = true := by
  have digit : c.isDigit = true := Nat.isDigit_of_mem_toDigits (by decide) (by decide) mem
  simpa [isAsciiDigit, Char.isDigit, Char.le_def] using digit

theorem notMem_ofNat {c : Char} (other : isAsciiDigit c = false) (n : Nat) : c ∉ ofNat n := by
  intro mem
  rw [isAsciiDigit_of_mem_ofNat mem] at other
  cases other

theorem ofNat_ne_nil (n : Nat) : ofNat n ≠ [] := Nat.toDigits_ne_nil

/-- The digits of a natural stand for it. -/
theorem ofDigits_ofNat (n : Nat) : ofDigits ((ofNat n).map fun c => c.toNat - '0'.toNat) = n := by
  rw [ofDigits, List.foldl_map]
  exact Nat.ofDigitChars_ten_toDigits

theorem trimBy_eq_self {drop : Char → Bool} {t : Text} (kept : ∀ c ∈ t, drop c = false) :
    trimBy drop t = t := by
  have whole (s : Text) (kept : ∀ c ∈ s, drop c = false) : s.dropWhile drop = s := by
    cases s with
    | nil => rfl
    | cons c s => exact List.dropWhile_cons_of_neg (by simp [kept c List.mem_cons_self])
  rw [trimBy, whole t kept, whole t.reverse (by simpa using kept), List.reverse_reverse]

end Text

namespace Numeral

open Text

/-! ### Integers -/

theorem digitRunFrom_of_digits {t : Text} (digits : ∀ c ∈ t, isAsciiDigit c = true)
    (afterDigit : Bool) :
    digitRunFrom afterDigit t = (t.map fun c => c.toNat - '0'.toNat, []) := by
  induction t generalizing afterDigit with
  | nil => rfl
  | cons c t ih =>
      obtain ⟨first, later⟩ := List.forall_mem_cons.1 digits
      rw [digitRunFrom, digitValue?_of_isAsciiDigit first, ih later]
      rfl

theorem digitRun_ofNat (n : Nat) :
    digitRun (ofNat n) = ((ofNat n).map fun c => c.toNat - '0'.toNat, []) :=
  digitRunFrom_of_digits (fun _ mem => isAsciiDigit_of_mem_ofNat mem) false

theorem cutSign_of_notMem {t : Text} (plus : '+' ∉ t) (minus : '-' ∉ t) :
    cutSign t = (false, t) := by
  fun_cases cutSign t with
  | case1 rest => exact absurd List.mem_cons_self plus
  | case2 rest => exact absurd List.mem_cons_self minus
  | case3 => rfl

theorem cutSign_ofNat (n : Nat) : cutSign (ofNat n) = (false, ofNat n) :=
  cutSign_of_notMem (notMem_ofNat (by decide) n) (notMem_ofNat (by decide) n)

theorem ofRun_ofNat (negative : Bool) {n : Nat} (few : (ofNat n).length ≤ maxDigits) :
    ofRun negative ((ofNat n).map fun c => c.toNat - '0'.toNat) = .ok (signed negative n) := by
  have some_digit : (ofNat n).map (fun c => c.toNat - '0'.toNat) ≠ [] :=
    mt List.map_eq_nil_iff.1 (ofNat_ne_nil n)
  have not_many : ¬ maxDigits < ((ofNat n).map fun c => c.toNat - '0'.toNat).length := by
    rw [List.length_map]
    exact Nat.not_lt.2 few
  rw [ofRun, if_neg some_digit, if_neg not_many, ofDigits_ofNat]

/-- A natural after a sign, or after none. -/
theorem parse_of_cutSign {t : Text} {negative : Bool} {n : Nat}
    (solid : ∀ c ∈ t, isNumberBlank c = false) (cut : cutSign t = (negative, ofNat n))
    (few : (ofNat n).length ≤ maxDigits) : parse t = .ok (signed negative n) := by
  rw [parse, trimBy_eq_self solid]
  simp only [cut, digitRun_ofNat]
  exact ofRun_ofNat negative few

theorem parse_ofInt {n : Int} (few : (ofNat n.natAbs).length ≤ maxDigits) :
    parse (ofInt n) = .ok n := by
  have solid (m : Nat) : ∀ c ∈ ofNat m, isNumberBlank c = false := fun c mem =>
    isNumberBlank_of_isAsciiDigit (isAsciiDigit_of_mem_ofNat mem)
  cases n with
  | ofNat m => exact parse_of_cutSign (solid m) (cutSign_ofNat m) few
  | negSucc m =>
      have solid : ∀ c ∈ '-' :: ofNat (m + 1), isNumberBlank c = false :=
        List.forall_mem_cons.2 ⟨by decide, solid (m + 1)⟩
      exact parse_of_cutSign solid rfl few

end Numeral

namespace Binary64

/-! ### Numbers of 64 bits -/

theorem lower_ofNat (n : Nat) : Text.lower (Text.ofNat n) = Text.ofNat n := by
  have same : ∀ c ∈ Text.ofNat n, c.toLower = id c := by
    intro c mem
    have digit := Text.isAsciiDigit_of_mem_ofNat mem
    exact Text.forall_isAsciiDigit (fun c => c.toLower = c) (by decide) digit
  rw [Text.lower, List.map_congr_left same, List.map_id]

theorem named?_ofNat (negative : Bool) (n : Nat) : named? negative (Text.ofNat n) = none := by
  have ne (word : Text) (c : Char) (mem : c ∈ word) (other : Text.isAsciiDigit c = false) :
      Text.ofNat n ≠ word := fun eq => Text.notMem_ofNat other n (eq ▸ mem)
  have inf := ne "inf" 'i' (by decide) (by decide)
  have infinity := ne "infinity" 'i' (by decide) (by decide)
  have nan := ne "nan" 'n' (by decide) (by decide)
  rw [named?, lower_ofNat, if_neg (not_or.2 ⟨inf, infinity⟩), if_neg nan]

theorem rescale_natCast (base num den k : Nat) :
    rescale base num den (k : Int) = (num, den * Nat.pow base k) := by
  rw [rescale, if_pos (Int.natCast_nonneg k), Int.toNat_natCast]

theorem rescale_neg_natCast (base num den k : Nat) :
    rescale base num den (-(k : Int)) = (num * Nat.pow base k, den) := by
  cases k with
  | zero => simp [rescale]
  | succ k => rw [rescale, if_neg (by omega), Int.neg_neg, Int.toNat_natCast]

theorem roundHalfEven_one (n : Nat) : roundHalfEven n 1 = n := by
  simp [roundHalfEven, Nat.mod_one]

/-- A power of ten is taken only inside the range. -/
theorem ofDecimal_zero {n : Nat} (few : (Text.ofNat n).length ≤ 310) :
    ofDecimal false n 0 = ofNat n := by
  by_cases zero : n = 0
  · rw [zero]
    rfl
  · have not_large : ¬ (310 : Int) < 0 + (Nat.toDigits 10 n).length := by
      rw [Text.ofNat] at few
      omega
    have not_small : ¬ (0 : Int) + (Nat.toDigits 10 n).length < -330 := by omega
    rw [ofDecimal, if_neg zero]
    simp only [if_neg not_large, if_neg not_small]
    have scaled := rescale_natCast 10 n 1 0
    rw [Int.natCast_zero] at scaled
    rw [Int.neg_zero, scaled]
    rfl

theorem parse?_ofNat {n : Nat} (few : (Text.ofNat n).length ≤ 310) :
    parse? (Text.ofNat n) = some (ofNat n) := by
  have solid : ∀ c ∈ Text.ofNat n, Text.isNumberBlank c = false := fun c mem =>
    Text.isNumberBlank_of_isAsciiDigit (Text.isAsciiDigit_of_mem_ofNat mem)
  have digits : (Text.ofNat n).map (fun c => c.toNat - '0'.toNat) ≠ [] :=
    mt List.map_eq_nil_iff.1 (Text.ofNat_ne_nil n)
  rw [parse?, Text.trimBy_eq_self solid]
  simp only [Numeral.cutSign_ofNat, named?_ofNat, Option.none_or, Numeral.digitRun_ofNat, fraction]
  rw [if_neg (not_and_of_not_left _ digits), exponentPart?, Option.map_some, ofDigits,
    List.append_nil, Text.ofDigits_ofNat]
  exact congrArg some (ofDecimal_zero few)

/-! ### Naturals that are numbers of 64 bits -/

theorem floorLog2_one {n : Nat} (ne : n ≠ 0) : floorLog2 n 1 = n.log2 := by
  have one : Nat.log2 1 = 0 := by decide
  have le : 1 * Nat.pow 2 n.log2 ≤ n := by
    rw [Nat.one_mul]
    exact Nat.log2_self_le ne
  rw [floorLog2, one]
  simp only [Int.natCast_zero, Int.sub_zero, rescale_natCast]
  exact if_pos le

/-- A natural below 2^53 has a mantissa with as many places as there are. -/
theorem ofNat_eq_finite {n : Nat} (ne : n ≠ 0) (lt : n < 2 ^ 53) :
    ofNat n = .finite false (n * 2 ^ (52 - n.log2)) (-((52 - n.log2 : Nat) : Int)) := by
  have log : n.log2 ≤ 52 := Nat.le_of_lt_succ ((Nat.log2_lt ne).2 lt)
  have exponent : max ((n.log2 : Int) - 52) minExponent = -((52 - n.log2 : Nat) : Int) := by
    rw [minExponent]
    omega
  -- The mantissa has 53 places, and is not one more than the greatest of them.
  have places : n * 2 ^ (52 - n.log2) < 2 * leastFull := by
    calc n * 2 ^ (52 - n.log2) < 2 ^ (n.log2 + 1) * 2 ^ (52 - n.log2) :=
          Nat.mul_lt_mul_of_pos_right Nat.lt_log2_self (Nat.two_pow_pos _)
      _ = 2 ^ 53 := by
          rw [← Nat.pow_add]
          congr 1
          omega
  have inside : ¬ maxExponent < -((52 - n.log2 : Nat) : Int) := by
    rw [maxExponent]
    omega
  rw [ofNat, ofRatio, if_neg ne, floorLog2_one ne, exponent]
  simp only [rescale_neg_natCast, roundHalfEven_one]
  change ofMantissa false (n * 2 ^ (52 - n.log2)) _ = _
  rw [ofMantissa, if_neg (Nat.ne_of_lt places)]
  exact if_neg inside

/-- A natural of at most 2^53 is a number of 64 bits. -/
theorem truncate?_ofNat {n : Nat} (le : n ≤ 2 ^ 53) : (ofNat n).truncate? = some (n : Int) := by
  by_cases zero : n = 0
  · rw [zero]
    decide +kernel
  · rcases Nat.lt_or_eq_of_le le with lt | rfl
    · rw [ofNat_eq_finite zero lt, truncate?, Int.neg_neg, rescale_natCast]
      simp only [Nat.one_mul]
      exact congrArg (some ∘ Int.ofNat) (Nat.mul_div_cancel n (Nat.two_pow_pos _))
    · decide +kernel

end Binary64

end FileCoverage

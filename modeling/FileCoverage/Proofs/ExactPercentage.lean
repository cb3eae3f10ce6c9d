import FileCoverage.Coverage.Merge
import Mathlib.Tactic.Ring

/-!
# Percentages are rounded once

A percentage is rounded twice: the quotient to 28 significant digits, and those digits to
hundredths.  The result is the exact quotient rounded to hundredths.  Two roundings can differ from
one only if the first of them reaches a midpoint of the second that the quotient itself does not
reach.  A midpoint is a whole number of units of the last digit, and a quotient by at most 10^20
that is not the midpoint is farther from it than half of such a unit.
-/

namespace FileCoverage

namespace Percentage

/-! ### Rounding to a natural -/

theorem succ_le_roundHalfUp_iff {den : Nat} (pos : 0 < den) (num k : Nat) :
    k + 1 ≤ roundHalfUp num den ↔ (2 * k + 1) * den ≤ 2 * num := by
  have expand : (k + 1) * (2 * den) = (2 * k + 1) * den + den := by ring
  rw [roundHalfUp, Nat.le_div_iff_mul_le (by omega), expand]
  omega

/-- A natural that the quotient reaches is reached by the rounded quotient. -/
theorem le_roundHalfEven {num den m : Nat} (pos : 0 < den) (le : m * den ≤ num) :
    m ≤ Binary64.roundHalfEven num den := by
  have floor : m ≤ num / den := (Nat.le_div_iff_mul_le pos).2 le
  unfold Binary64.roundHalfEven
  dsimp only
  split
  · exact Nat.le_succ_of_le floor
  · exact floor

/-- The rounded quotient is above the quotient by a half at most. -/
theorem roundHalfEven_le {num den : Nat} :
    2 * (Binary64.roundHalfEven num den * den) ≤ 2 * num + den := by
  have whole : num / den * den + num % den = num := Nat.div_add_mod' num den
  unfold Binary64.roundHalfEven
  dsimp only
  split
  next up =>
    have half : den ≤ 2 * (num % den) := by omega
    rw [Nat.add_mul]
    omega
  next => omega

/-! ### The division -/

theorem pow_length_le {n : Nat} (pos : 0 < n) : 10 ^ ((Nat.toDigits 10 n).length - 1) ≤ n := by
  by_cases one : (Nat.toDigits 10 n).length = 1
  · rw [one]
    exact pos
  · have some_digit : 0 < (Nat.toDigits 10 n).length := Nat.length_toDigits_pos
    have longer : ¬ (Nat.toDigits 10 n).length ≤ (Nat.toDigits 10 n).length - 1 := by omega
    rw [Nat.length_toDigits_le_iff (by decide) (by omega)] at longer
    exact Nat.not_lt.1 longer

theorem lt_pow_length (n : Nat) : n < 10 ^ (Nat.toDigits 10 n).length :=
  (Nat.length_toDigits_le_iff (by decide) Nat.length_toDigits_pos).1 (Nat.le_refl _)

/-- The number of digits of a dividend that is at most a hundred times the divisor. -/
theorem length_le_add_two {num den : Nat} (le : num ≤ 100 * den) :
    (Nat.toDigits 10 num).length ≤ (Nat.toDigits 10 den).length + 2 := by
  have bound : num < 10 ^ ((Nat.toDigits 10 den).length + 2) := by
    have below := lt_pow_length den
    rw [Nat.pow_add]
    omega
  exact (Nat.length_toDigits_le_iff (by decide) (by omega)).2 bound

/-- The numbers of digits tell the size of a quotient but for two places. -/
theorem scaled_bounds {num den places n : Nat} (pos : 0 < num) (pos' : 0 < den)
    (count : n + 1 + (Nat.toDigits 10 den).length = places + (Nat.toDigits 10 num).length) :
    10 ^ n * den < num * 10 ^ places ∧ num * 10 ^ places < 10 ^ (n + 2) * den := by
  have num_digits : 0 < (Nat.toDigits 10 num).length := Nat.length_toDigits_pos
  have den_digits : 0 < (Nat.toDigits 10 den).length := Nat.length_toDigits_pos
  constructor
  · calc 10 ^ n * den < 10 ^ n * 10 ^ (Nat.toDigits 10 den).length :=
          Nat.mul_lt_mul_of_pos_left (lt_pow_length den) (Nat.pow_pos (by decide))
      _ = 10 ^ ((Nat.toDigits 10 num).length - 1) * 10 ^ places := by
          rw [← Nat.pow_add, ← Nat.pow_add]
          congr 1
          omega
      _ ≤ num * 10 ^ places := Nat.mul_le_mul_right _ (pow_length_le pos)
  · calc num * 10 ^ places < 10 ^ (Nat.toDigits 10 num).length * 10 ^ places :=
          Nat.mul_lt_mul_of_pos_right (lt_pow_length num) (Nat.pow_pos (by decide))
      _ = 10 ^ (n + 2) * 10 ^ ((Nat.toDigits 10 den).length - 1) := by
          rw [← Nat.pow_add, ← Nat.pow_add]
          congr 1
          omega
      _ ≤ 10 ^ (n + 2) * den := Nat.mul_le_mul_left _ (pow_length_le pos')

/--
The digits of a quotient of at most a hundred are the quotient rounded with 28 of them, a tie to the
even one.
-/
theorem divide_eq {num den : Nat} (pos : 0 < num) (le : num ≤ 100 * den) :
    ∃ places, divide num den = (Binary64.roundHalfEven (num * 10 ^ places) den, places) ∧
      10 ^ 27 * den ≤ num * 10 ^ places ∧ num * 10 ^ places < 10 ^ 28 * den := by
  have den_pos : 0 < den := by omega
  have few := length_le_add_two le
  obtain ⟨places, count⟩ : ∃ places,
      28 + (Nat.toDigits 10 den).length = places + 1 + (Nat.toDigits 10 num).length :=
    ⟨27 + (Nat.toDigits 10 den).length - (Nat.toDigits 10 num).length, by omega⟩
  have guess : precision + (Nat.toDigits 10 den).length - (Nat.toDigits 10 num).length
      = places + 1 := by
    rw [precision]
    omega
  -- With one place more the quotient has 28 digits or 29.
  obtain ⟨lower, upper⟩ := scaled_bounds pos den_pos count
  have shift : num * 10 ^ (places + 1) = 10 * (num * 10 ^ places) := by ring
  unfold divide
  simp only [guess, Nat.pow_eq, Nat.div_lt_iff_lt_mul den_pos]
  by_cases fits : num * 10 ^ (places + 1) < 10 ^ precision * den
  · rw [if_pos fits]
    exact ⟨places + 1, rfl, Nat.le_of_lt lower, fits⟩
  · rw [if_neg fits]
    rw [precision] at fits
    exact ⟨places, rfl, by omega, by omega⟩

/-! ### Two roundings and one -/

/-- The midpoint below `k + 1` hundredths, in units of the last place. -/
def midpoint (places k : Nat) : Nat := (2 * k + 1) * (5 * 10 ^ places)

/-- A midpoint that the rounded quotient reaches is reached by the quotient itself: a quotient below
it is below it by more than half a unit. -/
theorem reaches_midpoint {num den places k : Nat} (small : den < 10 ^ (places + 1))
    (reached : midpoint places k ≤ Binary64.roundHalfEven (num * 10 ^ (places + 3)) den) :
    (2 * k + 1) * den ≤ 2 * (num * 100) := by
  by_contra missed
  have above := @roundHalfEven_le (num * 10 ^ (places + 3)) den
  have below : 2 * (num * 100) + 1 ≤ (2 * k + 1) * den := Nat.lt_of_not_le missed
  have gap : 10 * 10 ^ places * (2 * (num * 100) + 1) ≤ 2 * (num * 10 ^ (places + 3)) + den := by
    calc 10 * 10 ^ places * (2 * (num * 100) + 1)
        ≤ 10 * 10 ^ places * ((2 * k + 1) * den) := Nat.mul_le_mul_left _ below
      _ = 2 * (midpoint places k * den) := by
          rw [midpoint]
          ring
      _ ≤ 2 * (Binary64.roundHalfEven (num * 10 ^ (places + 3)) den * den) :=
          Nat.mul_le_mul_left _ (Nat.mul_le_mul_right _ reached)
      _ ≤ 2 * (num * 10 ^ (places + 3)) + den := above
  have expand : 10 * 10 ^ places * (2 * (num * 100) + 1)
      = 2 * (num * 10 ^ (places + 3)) + 10 ^ (places + 1) := by ring
  omega

/-- A midpoint is a whole number of units, so rounding to them does not fall below it. -/
theorem midpoint_le {num den k : Nat} (places : Nat) (pos : 0 < den)
    (reached : (2 * k + 1) * den ≤ 2 * (num * 100)) :
    midpoint places k ≤ Binary64.roundHalfEven (num * 10 ^ (places + 3)) den := by
  apply le_roundHalfEven pos
  calc midpoint places k * den = 5 * 10 ^ places * ((2 * k + 1) * den) := by
        rw [midpoint]
        ring
    _ ≤ 5 * 10 ^ places * (2 * (num * 100)) := Nat.mul_le_mul_left _ reached
    _ = num * 10 ^ (places + 3) := by ring

/--
A quotient rounded to so many places, and then to hundredths, is rounded to hundredths as if at
once, if the divisor is small beside a unit of the last place.
-/
theorem roundHalfUp_roundHalfEven {num den places : Nat} (pos : 0 < den)
    (small : den < 10 ^ (places + 1)) :
    roundHalfUp (Binary64.roundHalfEven (num * 10 ^ (places + 3)) den * 100) (10 ^ (places + 3))
      = roundHalfUp (num * 100) den := by
  have same (k : Nat) :
      k + 1 ≤ roundHalfUp (Binary64.roundHalfEven (num * 10 ^ (places + 3)) den * 100)
          (10 ^ (places + 3)) ↔
        k + 1 ≤ roundHalfUp (num * 100) den := by
    rw [succ_le_roundHalfUp_iff (Nat.pow_pos (by decide)), succ_le_roundHalfUp_iff pos]
    have scale : (2 * k + 1) * 10 ^ (places + 3) = 200 * midpoint places k := by
      rw [midpoint]
      ring
    rw [scale]
    constructor
    · intro reached
      exact reaches_midpoint small (by omega)
    · intro reached
      have digits := midpoint_le places pos reached
      omega
  apply Nat.le_antisymm
  · exact Nat.le_of_not_lt fun lt => Nat.lt_irrefl _ ((same _).1 lt)
  · exact Nat.le_of_not_lt fun lt => Nat.lt_irrefl _ ((same _).2 lt)

theorem roundHalfUp_hundred (covered executable : Nat) :
    roundHalfUp (covered * 100 * 100) executable
      = (20000 * covered + executable) / (2 * executable) := by
  rw [roundHalfUp]
  congr 2
  ring

/-- A percentage is the exact one, rounded to hundredths, a tie away from zero. -/
theorem hundredths_eq {covered executable : Nat} (pos : 0 < executable)
    (le : covered ≤ executable) (bound : executable ≤ 10 ^ 20) :
    hundredths covered executable = (20000 * covered + executable) / (2 * executable) := by
  by_cases none : covered = 0
  · rw [hundredths, if_pos (.inr none), none]
    exact (Nat.div_eq_of_lt (by omega)).symm
  · obtain ⟨places, digits, many, -⟩ :=
      @divide_eq (covered * 100) executable (by omega) (by omega)
    -- A quotient of at most a hundred has 25 of its digits after the point.
    have after_point : 10 ^ 25 ≤ 10 ^ places := by
      have le : 10 ^ 25 * (100 * executable) ≤ 10 ^ places * (100 * executable) := by
        calc 10 ^ 25 * (100 * executable) = 10 ^ 27 * executable := by ring
          _ ≤ covered * 100 * 10 ^ places := many
          _ ≤ 10 ^ places * (100 * executable) := by
              rw [Nat.mul_comm]
              exact Nat.mul_le_mul_left _ (by omega)
      exact Nat.le_of_mul_le_mul_right le (by omega)
    have enough : 25 ≤ places := (Nat.pow_le_pow_iff_right (by decide)).1 after_point
    obtain ⟨more, rfl⟩ : ∃ more, places = more + 3 := ⟨places - 3, by omega⟩
    have small : executable < 10 ^ (more + 1) := by
      calc executable ≤ 10 ^ 20 := bound
        _ < 10 ^ 23 := by decide
        _ ≤ 10 ^ (more + 1) := Nat.pow_le_pow_right (by decide) (by omega)
    rw [hundredths, if_neg (not_or.2 ⟨by omega, none⟩), digits]
    exact (roundHalfUp_roundHalfEven pos small).trans (roundHalfUp_hundred covered executable)

/-! ### The division that is made -/

/-- A quotient as the division gives it: there is none by zero. -/
def quotient? (num den : Nat) : Option (Nat × Nat) :=
  if den = 0 then none else some (divide num den)

/-- The percentage as it comes from the division that is given. -/
def hundredthsBy (divide? : Nat → Nat → Option (Nat × Nat)) (covered executable : Nat) :
    Option Nat :=
  if executable = 0 then some 0
  else
    (divide? (covered * 100) executable).map fun (digits, places) =>
      roundHalfUp (digits * 100) (10 ^ places)

theorem hundredthsBy_zero (divide? : Nat → Nat → Option (Nat × Nat)) (covered : Nat) :
    hundredthsBy divide? covered 0 = some 0 := rfl

/-- The division is never made by zero. -/
theorem hundredthsBy_quotient? (covered executable : Nat) :
    hundredthsBy quotient? covered executable = some (hundredths covered executable) := by
  by_cases zero : executable = 0
  · rw [zero]
    rfl
  · rw [hundredthsBy, if_neg zero, quotient?, if_neg zero, Option.map_some]
    by_cases none : covered = 0
    · -- Nothing out of something is zero in every rounding.
      have digits : (divide (covered * 100) executable).1 = 0 := by
        simp [divide, none, Binary64.roundHalfEven]
      rw [hundredths, if_pos (.inr none)]
      simp only [digits, Nat.zero_mul, roundHalfUp]
      have places : 0 < 10 ^ (divide (covered * 100) executable).2 := Nat.pow_pos (by decide)
      exact congrArg some (Nat.div_eq_of_lt (by omega))
    · rw [hundredths, if_neg (not_or.2 ⟨zero, none⟩)]
      rfl

/-! ### The text -/

theorem padLeft_ofNat {n : Nat} (lt : n < 100) :
    Text.padLeft 2 '0' (Text.ofNat n) = [Nat.digitChar (n / 10), Nat.digitChar (n % 10)] := by
  rw [Text.padLeft, Text.ofNat]
  by_cases one : n < 10
  · rw [Nat.toDigits_of_lt_base one, Nat.div_eq_of_lt one, Nat.mod_eq_of_lt one]
    rfl
  · have tens : n / 10 < 10 := by omega
    rw [Nat.toDigits_of_base_le (by decide) (by omega), Nat.toDigits_of_lt_base tens]
    rfl

/-- The whole part, and two digits after the point. -/
theorem toText_eq (n : Nat) :
    toText n
      = Text.ofNat (n / 100) ++ ['.', Nat.digitChar (n / 10 % 10), Nat.digitChar (n % 10)] := by
  have tens : n % 100 / 10 = n / 10 % 10 := by omega
  have ones : n % 100 % 10 = n % 10 := by omega
  rw [toText, padLeft_ofNat (Nat.mod_lt n (by decide)), tens, ones]
  simp

end Percentage

namespace Coverage

open Percentage

theorem covered_le_executable (c : Coverage) : c.covered ≤ c.executable := Nat.le_add_right _ _

/--
Of nothing the percentage is zero, whatever the division would say.  Otherwise a division is made
that is not by zero, and of up to 10^20 lines the percentage is the exact one, rounded once to
hundredths, a tie away from zero.  The text is the percentage with two decimals.
-/
theorem percentage_rounded_once (c : Coverage) :
    hundredthsBy quotient? c.covered c.executable = some c.percentage ∧
    c.percentageText
      = Text.ofNat (c.percentage / 100)
        ++ ['.', Nat.digitChar (c.percentage / 10 % 10), Nat.digitChar (c.percentage % 10)] ∧
    (c.executable = 0 →
      c.percentage = 0 ∧ c.percentageText = "0.00" ∧
      ∀ divide?, hundredthsBy divide? c.covered c.executable = some 0) ∧
    (0 < c.executable → c.executable ≤ 10 ^ 20 →
      c.percentage = (20000 * c.covered + c.executable) / (2 * c.executable) ∧
      c.percentage ≤ 10000 ∧
      ∀ more : Coverage, more.executable = c.executable → c.covered ≤ more.covered →
        c.percentage ≤ more.percentage) := by
  refine ⟨hundredthsBy_quotient? _ _, toText_eq _, fun nothing => ?_, fun pos bound => ?_⟩
  · have zero : c.percentage = 0 := by
      rw [percentage, hundredths, if_pos (.inl nothing)]
    refine ⟨zero, ?_, fun divide? => ?_⟩
    · rw [percentageText, zero]
      rfl
    · rw [nothing]
      exact hundredthsBy_zero divide? _
  · have exact := hundredths_eq pos c.covered_le_executable bound
    refine ⟨exact, ?_, fun more same le => ?_⟩
    · have few := c.covered_le_executable
      rw [percentage, exact]
      exact Nat.le_of_lt_succ ((Nat.div_lt_iff_lt_mul (by omega)).2 (by omega))
    · have whole : more.covered ≤ c.executable := same ▸ more.covered_le_executable
      rw [percentage, percentage, same, exact, hundredths_eq pos whole bound]
      exact Nat.div_le_div_right (by omega)

/-- One line of 32 has been executed: 3.125 percent. -/
def oneOfThirtyTwo : Coverage where
  source := ⟨"Cart.kt", List.replicate 32 []⟩
  states := .covered :: List.replicate 31 .notCovered
  length_states := rfl

/-- A tie of the only rounding that matters. -/
theorem percentage_of_oneOfThirtyTwo :
    oneOfThirtyTwo.percentage = (20000 * 1 + 32) / (2 * 32) ∧
    oneOfThirtyTwo.percentage = 313 ∧ oneOfThirtyTwo.percentageText = "3.13" := by
  have covered : oneOfThirtyTwo.covered = 1 := by decide
  have executable : oneOfThirtyTwo.executable = 32 := by decide
  obtain ⟨-, text, -, rounded⟩ := percentage_rounded_once oneOfThirtyTwo
  rw [covered, executable] at rounded
  have exact := (rounded (by decide) (by decide)).1
  rw [exact] at text
  exact ⟨exact, exact, text⟩

end Coverage

end FileCoverage

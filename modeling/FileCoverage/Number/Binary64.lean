import FileCoverage.Number.Numeral

/-!
# Numbers of 64 bits

A finite number is a sign, a whole mantissa below 2^53 and an exponent of two from -1074 to 971.
The mantissa of a number that is not zero is at least 2^52 unless the exponent is -1074, so every
number has one form.  A quotient of naturals is rounded to the nearest number, and a tie to the one
with an even mantissa; a quotient that rounds to 2^1024 or more is infinite.

Everything is exact arithmetic on naturals.
-/

namespace FileCoverage

inductive Binary64 where
  /-- The number `±mantissa · 2^exponent`. -/
  | finite (negative : Bool) (mantissa : Nat) (exponent : Int)
  | infinite (negative : Bool)
  | nan
  deriving DecidableEq, Repr

namespace Binary64

/-- A quotient rounded to the nearest natural, a tie to the even one. -/
def roundHalfEven (num den : Nat) : Nat :=
  let q := num / den
  let twice := 2 * (num % den)
  if den < twice ∨ twice = den ∧ q % 2 = 1 then q + 1 else q

/-- The quotient `num / den · base^(-e)` as a pair of naturals. -/
def rescale (base num den : Nat) (e : Int) : Nat × Nat :=
  if 0 ≤ e then (num, den * Nat.pow base e.toNat)
  else (num * Nat.pow base (-e).toNat, den)

/-- The exponent `e` with `2^e ≤ num / den < 2^(e + 1)`, for positive naturals. -/
def floorLog2 (num den : Nat) : Int :=
  let guess : Int := (num.log2 : Int) - den.log2
  let (n, d) := rescale 2 num den guess
  if d ≤ n then guess else guess - 1

/-- The least exponent of two. -/
def minExponent : Int := -1074

def maxExponent : Int := 971

/-- The least mantissa of a number whose exponent could be smaller, 2^52. -/
def leastFull : Nat := Nat.pow 2 52

/-- The number with the given mantissa and exponent, for a mantissa of at most 2^53. -/
def ofMantissa (negative : Bool) (mantissa : Nat) (exponent : Int) : Binary64 :=
  let (m, e) := if mantissa = 2 * leastFull then (leastFull, exponent + 1) else (mantissa, exponent)
  if maxExponent < e then .infinite negative else .finite negative m e

def zero (negative : Bool) : Binary64 := .finite negative 0 minExponent

/-- The number nearest to a quotient of naturals with a positive denominator. -/
def ofRatio (negative : Bool) (num den : Nat) : Binary64 :=
  if num = 0 then zero negative
  else
    let e := max (floorLog2 num den - 52) minExponent
    let (n, d) := rescale 2 num den e
    ofMantissa negative (roundHalfEven n d) e

def ofNat (n : Nat) : Binary64 := ofRatio false n 1

def ofInt (n : Int) : Binary64 := ofRatio (decide (n < 0)) n.natAbs 1

/--
The number nearest to `±coefficient · 10^exponent`.  Past the ends of the range the answer is known
without the power of ten.
-/
def ofDecimal (negative : Bool) (coefficient : Nat) (exponent : Int) : Binary64 :=
  if coefficient = 0 then zero negative
  else
    let magnitude : Int := exponent + (Nat.toDigits 10 coefficient).length
    if 310 < magnitude then .infinite negative
    else if magnitude < -330 then zero negative
    else
      let (num, den) := rescale 10 coefficient 1 (-exponent)
      ofRatio negative num den

def truncate? : Binary64 → Option Int
  | .finite negative m e =>
    let (num, den) := rescale 2 m 1 (-e)
    some (Numeral.signed negative (num / den))
  | _ => none

/-- The larger of one and the number.  What is not a number counts as less than one. -/
def atLeastOne : Binary64 → Binary64
  | .finite false m e =>
    let (num, den) := rescale 2 m 1 (-e)
    if den < num then .finite false m e else ofNat 1
  | .infinite false => .infinite false
  | _ => ofNat 1

/-! ### Reading -/

/-- The spellings of the numbers that are not finite. -/
def named? (negative : Bool) (t : Text) : Option Binary64 :=
  let word := Text.lower t
  if word = "inf" ∨ word = "infinity" then some (.infinite negative)
  else if word = "nan" then some .nan
  else none

/-- The digits of the fraction at the start of a text, and the text after them. -/
def fraction : Text → List Nat × Text
  | '.' :: rest => Numeral.digitRun rest
  | t => ([], t)

/-- The exponent that a text consists of; an empty text is the exponent zero. -/
def exponentPart? : Text → Option Int
  | [] => some 0
  | c :: rest =>
    if c = 'e' ∨ c = 'E' then
      let (negative, unsigned) := Numeral.cutSign rest
      match Numeral.digitRun unsigned with
      | ([], _) => none
      | (digits, []) => some (Numeral.signed negative (Text.ofDigits digits))
      | _ => none
    else none

/-- The number with the given digits before and after the point. -/
def ofDigits (negative : Bool) (whole fraction : List Nat) (exponent : Int) : Binary64 :=
  ofDecimal negative (Text.ofDigits (whole ++ fraction)) (exponent - fraction.length)

/--
Reads a text that holds one number and nothing else: digits with an optional point and exponent, or
one of the names of infinity and of what is not a number, after an optional sign and between blanks.
-/
def parse? (t : Text) : Option Binary64 :=
  let (negative, unsigned) := Numeral.cutSign (Text.trimBy Text.isNumberBlank t)
  (named? negative unsigned).or <|
    let (whole, rest) := Numeral.digitRun unsigned
    let (part, rest) := fraction rest
    if whole = [] ∧ part = [] then none
    else (exponentPart? rest).map (ofDigits negative whole part)

end Binary64

end FileCoverage

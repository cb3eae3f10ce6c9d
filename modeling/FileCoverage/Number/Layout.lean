import FileCoverage.Number.Binary64

/-!
# Numbers of 64 bits as text

Two forms of a number are written: the fewest digits that read back as the number, and six
significant digits.  Both choose digits `d` and an exponent `k` so that the number is near
`d · 10^k`, and lay them out by one rule: the point stands among the digits while it falls close
enough to them, and otherwise the first digit stands before the point and an exponent of at least
two digits follows.
-/

namespace FileCoverage.Binary64

/-- A decimal number `coefficient · 10^exponent`. -/
structure Decimal where
  coefficient : Nat
  exponent : Int
  deriving DecidableEq, Repr

/-- The exponent `e` with `10^e ≤ num / den < 10^(e + 1)`, for positive naturals. -/
def floorLog10 (num den : Nat) : Int :=
  if den ≤ num then ((Nat.toDigits 10 (num / den)).length : Int) - 1
  else
    let places := (Nat.toDigits 10 (den / num)).length
    if den ≤ num * Nat.pow 10 (places - 1) then 1 - (places : Int) else -(places : Int)

def Decimal.strip (d : Decimal) : Decimal :=
  let digits := (Nat.toDigits 10 d.coefficient).reverse
  let zeros := (digits.takeWhile (· = '0')).length
  if d.coefficient = 0 then ⟨0, 0⟩ else ⟨d.coefficient / Nat.pow 10 zeros, d.exponent + zeros⟩

/--
The numbers that round to `mantissa · 2^exponent` lie between two ends.  The ends and the number
itself are given as multiples of `2^(exponent - 2)`; the lower end is nearer at a power of two.
-/
structure Interval where
  low : Nat
  value : Nat
  high : Nat
  /-- Whether the ends themselves round to the number. -/
  closed : Bool
  /-- The exponent of two of the unit. -/
  unit : Int

def interval (mantissa : Nat) (exponent : Int) : Interval :=
  let narrow := mantissa = leastFull ∧ minExponent < exponent
  ⟨4 * mantissa - (if narrow then 1 else 2), 4 * mantissa, 4 * mantissa + 2, mantissa % 2 = 0,
    exponent - 2⟩

def Interval.contains (i : Interval) (d : Decimal) : Bool :=
  let (num, den) := rescale 10 d.coefficient 1 (-d.exponent)
  let (num, den) := rescale 2 num den i.unit
  if i.closed then i.low * den ≤ num && num ≤ i.high * den
  else i.low * den < num && num < i.high * den

/-- The distance of the decimal number from the middle, with the denominator left out. -/
def Interval.distance (i : Interval) (d : Decimal) : Nat :=
  let (num, den) := rescale 10 d.coefficient 1 (-d.exponent)
  let (num, den) := rescale 2 num den i.unit
  (num - i.value * den) + (i.value * den - num)

/-- The middle of the interval, rounded down to a multiple of `10^k`. -/
def Interval.floorTo (i : Interval) (k : Int) : Decimal :=
  let (num, den) := rescale 2 i.value 1 (-i.unit)
  let (num, den) := rescale 10 num den k
  ⟨num / den, k⟩

/--
The multiple of `10^k` in the interval that is nearest to its middle.  Only the two multiples beside
the middle can be; of two at one distance the even one is taken.
-/
def Interval.onGrid? (i : Interval) (k : Int) : Option Decimal :=
  let below := i.floorTo k
  let above : Decimal := ⟨below.coefficient + 1, k⟩
  match i.contains below, i.contains above with
  | true, true =>
    let down := i.distance below
    let up := i.distance above
    some (if down < up ∨ down = up ∧ below.coefficient % 2 = 0 then below else above)
  | true, false => some below
  | false, true => some above
  | false, false => none

/-- The number with the fewest digits in the interval, and of these the nearest. -/
def shortest (mantissa : Nat) (exponent : Int) : Decimal :=
  let i := interval mantissa exponent
  let (num, den) := rescale 2 i.value 1 (-i.unit)
  let top := floorLog10 num den
  match (List.range 17).findSome? fun (more : Nat) => i.onGrid? (top - more) with
  | some d => d.strip
  | none => i.floorTo (top - 17)

/-- A number rounded to so many significant digits, a tie to the even one. -/
def significant (digits mantissa : Nat) (exponent : Int) : Decimal :=
  let (num, den) := rescale 2 mantissa 1 (-exponent)
  let k := floorLog10 num den - (digits - 1 : Nat)
  let (n, d) := rescale 10 num den k
  Decimal.strip ⟨roundHalfEven n d, k⟩

structure Layout where
  /-- The greatest number of digits before the point. -/
  maxWhole : Int
  /-- Whether a whole number has a point and a zero after it. -/
  point : Bool

def Layout.decimal (layout : Layout) (d : Decimal) : Text :=
  let digits := Text.ofNat d.coefficient
  let whole : Int := digits.length + d.exponent
  if -4 < whole ∧ whole ≤ layout.maxWhole then
    if whole ≤ 0 then "0." ++ List.replicate (-whole).toNat '0' ++ digits
    else if d.exponent < 0 then digits.take whole.toNat ++ "." ++ digits.drop whole.toNat
    else digits ++ List.replicate d.exponent.toNat '0' ++ (if layout.point then ['.', '0'] else [])
  else
    let mantissa := digits.take 1 ++ (if digits.length = 1 then [] else '.' :: digits.drop 1)
    let power := whole - 1
    mantissa ++ 'e' :: (if power < 0 then '-' else '+')
      :: Text.padLeft 2 '0' (Text.ofNat power.natAbs)

/-- A minus sign in front of the text, if there is to be one. -/
def withSign (negative : Bool) (t : Text) : Text := if negative then '-' :: t else t

def Layout.render (layout : Layout) (choose : Nat → Int → Decimal) : Binary64 → Text
  | .nan => "nan"
  | .infinite negative => withSign negative "inf"
  | .finite negative m e =>
    withSign negative (layout.decimal (if m = 0 then ⟨0, 0⟩ else choose m e))

/-- The fewest digits that read back; up to sixteen digits before the point, and always a point. -/
def toText (x : Binary64) : Text := Layout.render ⟨16, true⟩ shortest x

/-- Six significant digits; up to six digits before the point, and no point after a whole number. -/
def toBriefText (x : Binary64) : Text := Layout.render ⟨6, false⟩ (significant 6) x

end FileCoverage.Binary64

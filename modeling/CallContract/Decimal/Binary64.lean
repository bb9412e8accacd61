/-!
# Finite binary64 numbers

A finite binary64 number is a sign, a mantissa and a power of two. No machine float is involved:
every operation is exact arithmetic on natural numbers and integers.

* `Binary64.ofRatio` rounds a quotient to the nearest number, a tie to the even mantissa, and gives
  nothing where the result would be too large.
* `Binary64.ofDecimal` reads `digits · 10 ^ exponent` by that rule, `Binary64.ofInt` an integer.
* `Binary64.mul` and `Binary64.div` round products and quotients.
* `Binary64.toInt?` is the integer that a number denotes, if it denotes one.
-/

namespace CallContract

/-- A mantissa and a power of two in their one written form: the mantissa has all 53 bits, or the
power is the least one. -/
def Binary64.IsCanonical (mantissa : Nat) (exponent : Int) : Prop :=
  mantissa < Nat.pow 2 53 ∧ -1074 ≤ exponent ∧ exponent ≤ 971 ∧
    (Nat.pow 2 52 ≤ mantissa ∨ exponent = -1074)

instance (mantissa : Nat) (exponent : Int) : Decidable (Binary64.IsCanonical mantissa exponent) := by
  unfold Binary64.IsCanonical
  infer_instance

/-- The number `± mantissa · 2 ^ exponent`; zero has two signs. -/
structure Binary64 where
  negative : Bool
  mantissa : Nat
  exponent : Int
  canonical : Binary64.IsCanonical mantissa exponent
  deriving DecidableEq

namespace Binary64

/-- Zero, with a sign. -/
def zero (negative : Bool) : Binary64 :=
  ⟨negative, 0, -1074, by decide⟩

instance : Inhabited Binary64 := ⟨zero false⟩

/-- Whether a number is one of the two zeros. -/
def isZero (x : Binary64) : Bool :=
  x.mantissa == 0

/-- The number without the sign of a zero: two numbers are numerically equal when these agree. -/
def unsignedZero (x : Binary64) : Binary64 :=
  if x.mantissa = 0 then zero false else x

/-- The absolute value as a quotient of natural numbers, the second one positive. -/
def ratio (x : Binary64) : Nat × Nat :=
  if 0 ≤ x.exponent then (x.mantissa * Nat.pow 2 x.exponent.toNat, 1)
  else (x.mantissa, Nat.pow 2 (-x.exponent).toNat)

/-- A quotient multiplied by a power of a base, as a quotient. -/
def scale (base num den : Nat) (power : Int) : Nat × Nat :=
  if 0 ≤ power then (num * Nat.pow base power.toNat, den)
  else (num, den * Nat.pow base (-power).toNat)

/-- The quotient rounded to the nearest natural number, a tie to the even one. -/
def roundDiv (num den : Nat) : Nat :=
  let q := num / den
  let r := num % den
  if den < 2 * r ∨ (2 * r = den ∧ q % 2 = 1) then q + 1 else q

/-- The power of two at which the quotient has a mantissa of 53 bits, or the least power there is. -/
def powerFor (num den : Nat) : Int :=
  let guess : Int := (num.log2 : Int) - den.log2 - 52
  let (n, d) := scale 2 num den (-guess)
  max (-1074) (if n < Nat.pow 2 52 * d then guess - 1 else guess)

/-- The binary64 number nearest to `± num / den`, or nothing where that is too large. -/
def ofRatio (negative : Bool) (num den : Nat) : Option Binary64 :=
  let power := powerFor num den
  let (n, d) := scale 2 num den (-power)
  let mantissa := roundDiv n d
  let (mantissa, power) :=
    if mantissa = Nat.pow 2 53 then (Nat.pow 2 52, power + 1) else (mantissa, power)
  if h : IsCanonical mantissa power then some ⟨negative, mantissa, power, h⟩ else none

/-- The binary64 number nearest to `± digits · 10 ^ exponent`. Exponents far outside the range of
binary64 are told by their size, so that no huge power is computed. -/
def ofDecimal (negative : Bool) (digits : Nat) (exponent : Int) : Option Binary64 :=
  if digits = 0 then some (zero negative)
  else if 400 < exponent then none
  else if exponent < -(400 + (digits.log2 : Int)) then some (zero negative)
  else
    let (n, d) := scale 10 digits 1 exponent
    ofRatio negative n d

/-- The binary64 number nearest to an integer, or zero for integers too large for any. -/
def ofInt (i : Int) : Binary64 :=
  (ofRatio (decide (i < 0)) i.natAbs 1).getD (zero (decide (i < 0)))

/-- The product of two numbers, rounded, or nothing where it is too large. -/
def mul (x y : Binary64) : Option Binary64 :=
  let negative := x.negative != y.negative
  if x.isZero || y.isZero then some (zero negative)
  else
    let ((n, d), (n', d')) := (x.ratio, y.ratio)
    ofRatio negative (n * n') (d * d')

/-- The quotient of a number by one that is not zero, rounded, or nothing where it is too large. -/
def div (x y : Binary64) : Option Binary64 :=
  let negative := x.negative != y.negative
  if x.isZero then some (zero negative)
  else
    let ((n, d), (n', d')) := (x.ratio, y.ratio)
    ofRatio negative (n * d') (d * n')

/-- The integer that a number denotes, if it denotes one. -/
def toInt? (x : Binary64) : Option Int :=
  let (n, d) := x.ratio
  if n % d = 0 then some (if x.negative then -(n / d : Nat) else (n / d : Nat)) else none

end Binary64

end CallContract

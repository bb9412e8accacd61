import CallContract.Decimal.Binary64
import CallContract.Decimal.Numeral

/-!
# Shortest decimal notation

* `Binary64.shortest` finds the fewest decimal digits that read back as a given number, and of those
  the nearest to it. On each decimal grid only the two neighbours of the number are tried, since the
  numbers that read back form an interval around it.
* `Layout` says where a notation changes from positional to exponential; `Layout.write` writes a
  number in it.
-/

namespace CallContract

namespace Binary64

/-- The exponent of the first decimal digit of a quotient. -/
def leadingPower (x : Binary64) : Int :=
  let (n, d) := x.ratio
  let guess : Int := (((x.mantissa.log2 : Int) + x.exponent) * 30103).fdiv 100000
  let (n, d) := scale 10 n d (-(guess + 1))
  if d ≤ n then guess + 1 else guess

/-- Whether `digits · 10 ^ power` reads back as the absolute value of a number. -/
def readsBack (x : Binary64) (digits : Nat) (power : Int) : Bool :=
  ofDecimal false digits power == some { x with negative := false }

/-- The better of the two neighbours of a number on the grid of the multiples of `10 ^ power`. -/
def onGrid (x : Binary64) (power : Int) : Option (Nat × Int) :=
  let (n, d) := x.ratio
  let (n, d) := scale 10 n d (-power)
  let low := n / d
  let rest := n % d
  let nearHigh := d < 2 * rest || (2 * rest == d && low % 2 == 1)
  match readsBack x low power, readsBack x (low + 1) power with
  | true, true => some (if nearHigh then low + 1 else low, power)
  | true, false => some (low, power)
  | false, true => some (low + 1, power)
  | false, false => none

/-- Digits without zeros at the end, and the power of ten they are then multiplied by. -/
def dropZeros (digits : Nat) (power : Int) : Nat × Int :=
  if h : 0 < digits ∧ digits % 10 = 0 then dropZeros (digits / 10) (power + 1) else (digits, power)
termination_by digits
decreasing_by omega

/-- The shortest decimal of the absolute value: digits and the power of ten they are multiplied by.
Seventeen digits always read back. -/
def shortest (x : Binary64) : Nat × Int :=
  let lead := leadingPower x
  let found := (List.range 17).findSome? fun (n : Nat) => onGrid x (lead - (n : Int))
  let (digits, power) := found.getD (0, 0)
  dropZeros digits power

end Binary64

/-- Where a decimal notation is positional: for numbers `d.ddd · 10 ^ e` with `lowest ≤ e < limit`. -/
structure Layout where
  lowest : Int
  limit : Int

namespace Layout

/-- Writes digits whose first one stands for units of `10 ^ lead`: positional with a point and at
least one place after it, or with an exponent that always has its sign. -/
def writeDigits (layout : Layout) (digits : List Char) (lead : Int) : List Char :=
  if layout.lowest ≤ lead ∧ lead < layout.limit then
    if 0 ≤ lead then
      let whole := lead.toNat + 1
      let padded := digits ++ List.replicate (whole - digits.length) '0'
      let places := padded.drop whole
      padded.take whole ++ '.' :: (if places.isEmpty then ['0'] else places)
    else
      '0' :: '.' :: List.replicate (-lead - 1).toNat '0' ++ digits
  else
    let places := digits.drop 1
    digits.take 1 ++ (if places.isEmpty then [] else '.' :: places) ++
      'e' :: (if lead < 0 then '-' else '+') :: Decimal.numeral lead.natAbs

/-- The text of a binary64 number. -/
def write (layout : Layout) (x : Binary64) : List Char :=
  let body :=
    if x.isZero then ['0', '.', '0']
    else
      let (digits, power) := x.shortest
      let cs := Decimal.numeral digits
      layout.writeDigits cs (power + cs.length - 1)
  if x.negative then '-' :: body else body

end Layout

end CallContract

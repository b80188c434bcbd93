import ThermalLabel.Number.Binary64

/-!
# Shortest decimal of a double

The decimals that round to a double fill an interval around its exact value; the ends belong to it iff the significand
is even. `Decimal.shortest` gives the decimal in that interval with the fewest digits, of several the one nearest to the
value. On each grid of decimals with `n` digits only the two neighbours of the value can be the answer, so they alone
are tried, for `n` from 1 to 17. All comparisons are between naturals.
-/

namespace ThermalLabel

/-- The decimal `digits * 10 ^ exponent`. -/
structure Decimal where
  digits : Nat
  exponent : Int
  deriving DecidableEq, Repr

/-- Which of two equally near decimals is taken. -/
inductive Tie where
  | up
  | even
  deriving DecidableEq, Repr

namespace Decimal

/-- The number of decimal digits. -/
def digitCount (n : Nat) : Nat := (Nat.toDigits 10 n).length

/-- The exponent `e` with `10 ^ (e - 1) ≤ n / d < 10 ^ e`, for a positive ratio. -/
def scaleOf (n d : Nat) : Int :=
  if d ≤ n then digitCount (n / d) else 1 - (digitCount ((d + n - 1) / n - 1) : Int)

/--
A value and the ends of its interval, as multiples `value`, `low` and `high` of one unit `unit / per`; the unit is a
quarter of the distance between neighbouring doubles.
-/
structure Interval where
  low : Nat
  value : Nat
  high : Nat
  closed : Bool
  unit : Nat
  per : Nat

/-- The decimals that round to a positive double. Below a power of two the neighbours are twice as dense. -/
def Interval.ofExact (x : Exact) : Interval :=
  let below := if x.significand = Nat.pow 2 52 ∧ -1074 < x.exponent then 1 else 2
  let e := x.exponent - 2
  ⟨4 * x.significand - below, 4 * x.significand, 4 * x.significand + 2, x.significand % 2 = 0,
    Nat.pow 2 e.toNat, Nat.pow 2 (-e).toNat⟩

/-- The better of the two neighbours of the value on the grid of multiples of `10 ^ k`, if the interval holds one. -/
def Interval.onGrid (i : Interval) (tie : Tie) (k : Int) : Option Nat :=
  let a := Nat.pow 10 k.toNat * i.per
  let b := i.unit * Nat.pow 10 (-k).toNat
  let lower := i.value * b / a
  let upper := lower + 1
  let holds (d : Nat) : Bool :=
    if i.closed then i.low * b ≤ d * a && d * a ≤ i.high * b else i.low * b < d * a && d * a < i.high * b
  let down := i.value * b - lower * a
  let rise := upper * a - i.value * b
  match decide (lower ≠ 0) && holds lower, holds upper with
  | false, false => none
  | true, false => some lower
  | false, true => some upper
  | true, true =>
    if down < rise then some lower
    else if rise < down then some upper
    else match tie with
      | .up => some upper
      | .even => some (if lower % 2 = 0 then lower else upper)

/-- The decimal without trailing zeros among its digits; `fuel` bounds their number. -/
def stripZeros : Nat → Decimal → Decimal
  | 0, d => d
  | fuel + 1, d => if d.digits % 10 = 0 ∧ d.digits ≠ 0 then stripZeros fuel ⟨d.digits / 10, d.exponent + 1⟩ else d

/-- The shortest decimal that rounds to a positive double. -/
def shortest (tie : Tie) (x : Exact) : Decimal :=
  let (n, d) := x.ratio
  let scale := scaleOf n d
  let i := Interval.ofExact x
  let found := (List.range 17).findSome? fun used =>
    let k := scale - (used + 1 : Nat)
    (i.onGrid tie k).map fun digits => stripZeros 17 ⟨digits, k⟩
  found.getD ⟨0, 0⟩

end Decimal

end ThermalLabel

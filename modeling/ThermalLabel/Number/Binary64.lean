/-!
# Double-precision numbers

A `Binary64` is its sixty-four bits. Everything is computed on the exact value behind the bits, a natural significand
times a power of two, and rounded once at the end.

* `Binary64.exactValue?` is that value, absent for infinities and NaN.
* `Binary64.ofRatio` is the double nearest to a ratio of naturals, of two equally near ones the even one; ratios that
  are too large give an infinity.
-/

namespace ThermalLabel

/-- A double-precision number, by its bits. -/
structure Binary64 where
  bits : UInt64
  deriving DecidableEq, Repr, Inhabited

/-- The exact value of a finite double: `significand * 2 ^ exponent`, negated if `negative`. Zero keeps its sign. -/
structure Exact where
  negative : Bool
  significand : Nat
  exponent : Int
  deriving DecidableEq, Repr

namespace Binary64

/-- The bit that says negative. -/
def negative (x : Binary64) : Bool := Nat.pow 2 63 ≤ x.bits.toNat

/-- The bits without the sign. -/
def magnitude (x : Binary64) : Nat := x.bits.toNat % Nat.pow 2 63

/-- The magnitude bits of an infinity; the finite doubles have smaller ones and NaN larger ones. -/
def infinityBits : Nat := 2047 * Nat.pow 2 52

/-- The double with a sign and magnitude bits. -/
def ofMagnitude (negative : Bool) (magnitude : Nat) : Binary64 :=
  ⟨UInt64.ofNat ((if negative then Nat.pow 2 63 else 0) + magnitude)⟩

def isFinite (x : Binary64) : Bool := x.magnitude < infinityBits

def isNaN (x : Binary64) : Bool := infinityBits < x.magnitude

/-- Positive zero. -/
def zero : Binary64 := ⟨0⟩

/-- An infinity. -/
def infinity (negative : Bool) : Binary64 := ofMagnitude negative infinityBits

/-- The quiet NaN without a payload. -/
def nan : Binary64 := ofMagnitude false (infinityBits + Nat.pow 2 51)

/-- The exact value of a finite double. -/
def exactValue? (x : Binary64) : Option Exact :=
  let field : Nat := x.magnitude / Nat.pow 2 52
  let fraction : Nat := x.magnitude % Nat.pow 2 52
  if x.isFinite then
    if field = 0 then some ⟨x.negative, fraction, -1074⟩
    else some ⟨x.negative, Nat.pow 2 52 + fraction, (field : Int) - 1075⟩
  else none

/-- Is the number greater than zero? -/
def isPositive (x : Binary64) : Bool := !x.negative && x.magnitude != 0 && !x.isNaN

/-- Is the number at least zero? Both zeros are. -/
def isNonnegative (x : Binary64) : Bool := (!x.negative || x.magnitude == 0) && !x.isNaN

/-! ## Rounding -/

/-- The whole number nearest to `n / d`; a half goes to the even neighbour. -/
def roundHalfEven (n d : Nat) : Nat :=
  let q := n / d
  let r := n % d
  if 2 * r < d then q else if d < 2 * r then q + 1 else q + q % 2

/-- `n / d` times two to the power `-e`, as a ratio of naturals. -/
def shiftRatio (n d : Nat) (e : Int) : Nat × Nat := (n * Nat.pow 2 (-e).toNat, d * Nat.pow 2 e.toNat)

/--
The exponent at which the significand of `n / d` has 53 binary digits, or the least exponent there is. The first guess
from the lengths of `n` and `d` leaves 52 or 53 digits.
-/
def exponentOf (n d : Nat) : Int :=
  let guess : Int := (n.log2 : Int) - d.log2 - 52
  let (a, b) := shiftRatio n d guess
  max (if a < b * Nat.pow 2 52 then guess - 1 else guess) (-1074)

/--
The double nearest to `n / d` with the given sign. A significand that rounds up to `2 ^ 53` carries into the exponent
field, because the magnitude bits of consecutive doubles are consecutive numbers.
-/
def ofRatio (negative : Bool) (n d : Nat) : Binary64 :=
  if n = 0 then ofMagnitude negative 0
  else
    let e := exponentOf n d
    let (a, b) := shiftRatio n d e
    let bits := (e + 1074).toNat * Nat.pow 2 52 + roundHalfEven a b
    ofMagnitude negative (min bits infinityBits)

/-- The double nearest to a natural number. -/
def ofNat (n : Nat) : Binary64 := ofRatio false n 1

/-- The number with the other sign. -/
def neg (x : Binary64) : Binary64 := ofMagnitude (!x.negative) x.magnitude

end Binary64

namespace Exact

/-- The significand over a power of two, as a ratio of naturals. -/
def ratio (x : Exact) : Nat × Nat := (x.significand * Nat.pow 2 x.exponent.toNat, Nat.pow 2 (-x.exponent).toNat)

/-- The product, rounded once. -/
def mul (x y : Exact) : Binary64 :=
  let (n, d) := x.ratio
  let (n', d') := y.ratio
  Binary64.ofRatio (x.negative != y.negative) (n * n') (d * d')

/-- The quotient by a value other than zero, rounded once. -/
def div (x y : Exact) : Binary64 :=
  let (n, d) := x.ratio
  let (n', d') := y.ratio
  Binary64.ofRatio (x.negative != y.negative) (n * d') (d * n')

/-- The whole number nearest to the absolute value; a half goes up. -/
def roundHalfUp (x : Exact) : Nat :=
  let (n, d) := x.ratio
  (2 * n + d) / (2 * d)

end Exact

end ThermalLabel

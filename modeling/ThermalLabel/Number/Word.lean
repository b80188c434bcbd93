/-!
# Words of dots

Positions, sizes and identifiers are 32-bit words. Arithmetic on them clamps at the largest word instead of wrapping,
and a word is written in decimal digits without a sign.

* `readNatural` reads digits after an optional plus sign; `readWord` also checks the range.
-/

namespace ThermalLabel

/-- The largest word. -/
def wordMax : UInt32 := 4294967295

/-- The word nearest to a natural number. -/
def clampWord (n : Nat) : UInt32 := if n < UInt32.size then UInt32.ofNat n else wordMax

/-- The sum, or the largest word. -/
def addWord (a b : UInt32) : UInt32 := clampWord (a.toNat + b.toNat)

/-- The product, or the largest word. -/
def mulWord (a b : UInt32) : UInt32 := clampWord (a.toNat * b.toNat)

/-- The difference, or zero. -/
def subWord (a b : UInt32) : UInt32 := UInt32.ofNat (a.toNat - b.toNat)

/-- A fifth of a word, rounded up. -/
def fifthUp (a : UInt32) : UInt32 := UInt32.ofNat ((a.toNat + 4) / 5)

/-- The distance between two words. -/
def distance (a b : UInt32) : Nat := (a.toNat - b.toNat) + (b.toNat - a.toNat)

/-- The decimal digits of a number. -/
def decimal (n : Nat) : List Char := Nat.toDigits 10 n

/-- The decimal digits of a word. -/
def wordDigits (w : UInt32) : List Char := decimal w.toNat

/-- The number that a non-empty run of digits denotes. -/
def readDigits (cs : List Char) : Option Nat :=
  if cs ≠ [] ∧ cs.all Char.isDigit then some (Nat.ofDigitChars 10 cs 0) else none

/-- A natural number in digits, with or without a plus sign. -/
def readNatural : List Char → Option Nat
  | '+' :: cs => readDigits cs
  | cs => readDigits cs

/-- A natural number in digits that is at most `bound`. -/
def readBounded (bound : Nat) (cs : List Char) : Option Nat :=
  (readNatural cs).filter (· ≤ bound)

/-- A word in digits. -/
def readWord (cs : List Char) : Option UInt32 :=
  (readBounded wordMax.toNat cs).map UInt32.ofNat

/-- Digits read back as the number that was written. -/
theorem readDigits_decimal (n : Nat) : readDigits (decimal n) = some n := by
  have h : (Nat.toDigits 10 n).all Char.isDigit = true :=
    List.all_eq_true.2 fun c hc => Nat.isDigit_of_mem_toDigits (by decide) (by decide) hc
  rw [readDigits, decimal, if_pos ⟨Nat.toDigits_ne_nil, h⟩, Nat.ofDigitChars_ten_toDigits]

end ThermalLabel

import ThermalLabel.Number.Shortest
import ThermalLabel.Number.Word
import ThermalLabel.Text.Basic

/-!
# Doubles as text

* `Binary64.plainText` is how messages show a double: positional notation however long, whole numbers without a point.
* `Decimal.split` cuts the digits of a decimal at its point, for notations that have one.
* `Binary64.read?` reads a decimal, an infinity or NaN and rounds it once.
-/

namespace ThermalLabel

namespace Decimal

/-- The digits before and after the point, both positional; the first part is never empty. -/
def split (d : Decimal) : List Char × List Char :=
  let digits := decimal d.digits
  let zeros (n : Nat) := List.replicate n '0'
  if 0 ≤ d.exponent then (digits ++ zeros d.exponent.toNat, [])
  else
    let places := (-d.exponent).toNat
    if places < digits.length then (digits.take (digits.length - places), digits.drop (digits.length - places))
    else (['0'], zeros (places - digits.length) ++ digits)

/-- The power of ten of the first digit. -/
def leadingPower (d : Decimal) : Int := d.exponent + digitCount d.digits - 1

end Decimal

namespace Binary64

/-- The text of a double in a message. Of two equally near shortest decimals it shows the larger. -/
def plainText (x : Binary64) : String :=
  let sign := if x.negative then "-" else ""
  match x.exactValue? with
  | none => if x.isNaN then "NaN" else sign ++ "inf"
  | some v =>
    if v.significand = 0 then sign ++ "0"
    else
      let (whole, fraction) := (Decimal.shortest .up v).split
      sign ++ String.ofList (if fraction = [] then whole else whole ++ '.' :: fraction)

/-! ## Reading -/

/--
The double nearest to `digits * 10 ^ exponent`. Beyond four hundred places on either side of the point the answer no
longer depends on the digits.
-/
def ofDecimal (negative : Bool) (digits : Nat) (exponent : Int) : Binary64 :=
  if digits = 0 then ofMagnitude negative 0
  else if exponent + Decimal.digitCount digits > 400 then infinity negative
  else if exponent + Decimal.digitCount digits < -400 then ofMagnitude negative 0
  else ofRatio negative (digits * Nat.pow 10 exponent.toNat) (Nat.pow 10 (-exponent).toNat)

/-- An exponent: digits after an optional sign. -/
def readExponent : List Char → Option Int
  | '-' :: cs => (readDigits cs).map fun n => -(n : Int)
  | cs => (readNatural cs).map fun n => (n : Int)

/-- A decimal without a sign: digits on at least one side of the point, then an optional exponent. -/
def readUnsigned (negative : Bool) (cs : List Char) : Option Binary64 :=
  let whole := cs.takeWhile Char.isDigit
  let (fraction, rest) :=
    match cs.dropWhile Char.isDigit with
    | '.' :: r => (r.takeWhile Char.isDigit, r.dropWhile Char.isDigit)
    | r => ([], r)
  let exponent :=
    match rest with
    | [] => some 0
    | e :: r => if e = 'e' ∨ e = 'E' then readExponent r else none
  match readDigits (whole ++ fraction), exponent with
  | some digits, some e => some (ofDecimal negative digits (e - fraction.length))
  | _, _ => none

/-- An infinity or NaN by name, in letters of any case. -/
def readNamed (negative : Bool) (cs : List Char) : Option Binary64 :=
  let name := Text.lower cs
  if name = "inf".toList ∨ name = "infinity".toList then some (infinity negative)
  else if name = "nan".toList then some nan
  else none

/-- A double with an optional sign. -/
def read? (cs : List Char) : Option Binary64 :=
  let (negative, rest) :=
    match cs with
    | '-' :: r => (true, r)
    | '+' :: r => (false, r)
    | _ => (false, cs)
  (readNamed negative rest).or (readUnsigned negative rest)

end Binary64

end ThermalLabel

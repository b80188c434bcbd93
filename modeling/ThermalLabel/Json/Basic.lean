import ThermalLabel.Number.Text

/-!
# Documents

The values of JSON texts, as they are read and as they are written. A number keeps the digits of its text: which numbers
are whole, and which fit a word or a double, is decided where the number is used.

A text that breaks off is still a value up to there: `malformed` stands where the first value, separator or closing
bracket is missing. So a reader that walks a document from the left meets the problems in the order of the text.
-/

namespace ThermalLabel

/-- The sign in front of an exponent. -/
inductive ExponentSign where
  | none
  | plus
  | minus
  deriving DecidableEq, Repr

/-- A number as written: digits, digits after the point, and digits of an exponent. -/
structure Literal where
  negative : Bool
  whole : List Char
  fraction : Option (List Char)
  exponent : Option (ExponentSign × List Char)
  deriving DecidableEq, Repr

/-- A JSON value as far as its text can be read. -/
inductive Json where
  | null
  | bool (b : Bool)
  | number (n : Literal)
  | string (s : String)
  /-- A string whose escapes name half of a surrogate pair, so that it is no text. -/
  | loneSurrogate
  | array (items : List Json)
  /-- Members in the order of the text; a key is missing where it is no text. -/
  | object (members : List (Option String × Json))
  /-- The place where the text stops being JSON. -/
  | malformed
  deriving Inhabited

/-- What a number literal denotes. -/
inductive Numeric where
  | integer (n : Int)
  | float (x : Binary64)
  deriving DecidableEq, Repr

namespace Literal

/-! ## Values of literals -/

/-- Takes up digits while the number they form stays below `2 ^ 64`; gives it and how many were taken up. -/
def absorb (significand : Nat) : List Char → Nat × Nat
  | [] => (significand, 0)
  | c :: cs =>
    let next := 10 * significand + (c.toNat - '0'.toNat)
    if next < Nat.pow 2 64 then
      let (s, taken) := absorb next cs
      (s, taken + 1)
    else (significand, 0)

/-- `f` times a power of ten up to `10 ^ 308`, unless that is infinite. -/
def raise (f : Exact) (power : Nat) : Option Binary64 :=
  match (Binary64.ofNat (Nat.pow 10 power)).exactValue? with
  | some p => if (f.mul p).isFinite then some (f.mul p) else none
  | none => none

/-- `f` over a power of ten, dividing by `10 ^ 308` as long as the power is larger. -/
def lower (f : Binary64) (power : Nat) : Binary64 :=
  match f.exactValue?, (Binary64.ofNat (Nat.pow 10 (min power 308))).exactValue? with
  | some v, some p =>
    if v.significand = 0 then f
    else if h : power ≤ 308 then v.div p
    else lower (v.div p) (power - 308)
  | _, _ => f
termination_by power
decreasing_by omega

/--
The double of a significand below `2 ^ 64` and a decimal exponent. The significand is rounded first and the power of ten
applied to it then, so the result can differ from the nearest double in its last bit. There is none if it is infinite.
-/
def scale (significand : Nat) (exponent : Int) : Option Binary64 :=
  let f := Binary64.ofNat significand
  match f.exactValue? with
  | none => none
  | some v =>
    if significand = 0 then some f
    else if exponent < 0 then some (lower f exponent.natAbs)
    else if exponent ≤ 308 then raise v exponent.toNat
    else none

/-- The number of an exponent part. -/
def exponentValue : Option (ExponentSign × List Char) → Int
  | none => 0
  | some (.minus, ds) => -(Nat.ofDigitChars 10 ds 0 : Int)
  | some (_, ds) => Nat.ofDigitChars 10 ds 0

/-- Gives a double the sign of the literal. -/
def signed (n : Literal) (x : Binary64) : Binary64 := if n.negative then x.neg else x

/--
What the literal denotes: an integer if it has neither point nor exponent and lies in the range from `-2 ^ 63` to
`2 ^ 64 - 1`, else a double. Minus zero is a double. A double too large to be finite denotes nothing.
-/
def numeric? (n : Literal) : Option Numeric :=
  let (whole, taken) := absorb 0 n.whole
  let dropped : Int := n.whole.length - taken
  if n.fraction = none ∧ n.exponent = none ∧ dropped = 0 then
    if n.negative = false then some (.integer whole)
    else if whole ≠ 0 ∧ whole ≤ Nat.pow 2 63 then some (.integer (-whole))
    else some (.float (Binary64.ofNat whole).neg)
  else
    let (significand, places) := absorb whole (n.fraction.getD [])
    (scale significand (dropped - places + exponentValue n.exponent)).map fun x => .float (n.signed x)

/-! ## Literals of values -/

/-- The literal of an integer. -/
def ofInt (n : Int) : Literal := ⟨n < 0, decimal n.natAbs, none, none⟩

/-- The literal of a natural number. -/
def ofNat (n : Nat) : Literal := ⟨false, decimal n, none, none⟩

/-- The digits of a decimal with an exponent: one digit before the point. -/
def scientific (negative : Bool) (d : Decimal) : Literal :=
  let power := d.leadingPower
  let digits := decimal d.digits
  let fraction := digits.drop 1
  ⟨negative, digits.take 1, if fraction = [] then none else some fraction,
    some (if power < 0 then .minus else .plus, decimal power.natAbs)⟩

/-- The digits of a decimal around the point, with a zero after it if there are none. -/
def positional (negative : Bool) (d : Decimal) : Literal :=
  let (whole, fraction) := d.split
  ⟨negative, whole, some (if fraction = [] then ['0'] else fraction), none⟩

/--
The literal of a finite double: the shortest digits that round to it, of two equally near ones the even; positional from
`10 ^ -5` to below `10 ^ 16`, else with an exponent that always has a sign. Others have no literal.
-/
def ofBinary64? (x : Binary64) : Option Literal :=
  x.exactValue?.map fun v =>
    if v.significand = 0 then ⟨x.negative, ['0'], some ['0'], none⟩
    else
      let d := Decimal.shortest .even v
      if -5 ≤ d.leadingPower ∧ d.leadingPower < 16 then positional x.negative d else scientific x.negative d

/-- The text of a literal. -/
def text (n : Literal) : List Char :=
  let sign := if n.negative then ['-'] else []
  let fraction := match n.fraction with
    | none => []
    | some ds => '.' :: ds
  let exponent := match n.exponent with
    | none => []
    | some (.none, ds) => 'e' :: ds
    | some (.plus, ds) => 'e' :: '+' :: ds
    | some (.minus, ds) => 'e' :: '-' :: ds
  sign ++ n.whole ++ fraction ++ exponent

end Literal

namespace Json

/-- A natural number. -/
def ofNat (n : Nat) : Json := .number (Literal.ofNat n)

/-- A word. -/
def ofWord (w : UInt32) : Json := ofNat w.toNat

/-- An integer. -/
def ofInt (n : Int) : Json := .number (Literal.ofInt n)

/-- A double; null if it is not finite. -/
def ofBinary64 (x : Binary64) : Json := ((Literal.ofBinary64? x).map Json.number).getD .null

/-- A text. -/
def ofChars (cs : List Char) : Json := .string (String.ofList cs)

/-- An object with text keys. -/
def ofMembers (members : List (String × Json)) : Json := .object (members.map fun (k, v) => (some k, v))

/-! ## Sorting by key -/

/-- The order of keys by their characters. -/
def keyLe (a b : Option String × Json) : Bool :=
  match a.1, b.1 with
  | none, _ => true
  | some _, none => false
  | some x, some y => decide (x ≤ y)

mutual

/-- The document with the members of every object sorted by key. -/
def sortKeys : Json → Json
  | .array items => .array (sortItems items)
  | .object members => .object ((sortMembers members).mergeSort keyLe)
  | v => v

/-- `sortKeys` on each item. -/
def sortItems : List Json → List Json
  | [] => []
  | v :: vs => sortKeys v :: sortItems vs

/-- `sortKeys` on the value of each member. -/
def sortMembers : List (Option String × Json) → List (Option String × Json)
  | [] => []
  | (k, v) :: ms => (k, sortKeys v) :: sortMembers ms

end

end Json

end ThermalLabel

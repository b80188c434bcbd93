import ThermalLabel.Text.Utf8

/-!
# Hex escapes

Field data that contains command leaders or controls is written with escapes: an indicator character and two hex digits
stand for one byte. The data then decodes to bytes; the indicator itself is written as an escape too.

* `HexEscape.encode` writes a text, `HexEscape.decode` gives the bytes of a text or all its malformed escapes.
-/

namespace ThermalLabel.HexEscape

/-- The indicator used unless a program chooses another. -/
def defaultIndicator : UInt8 := 0x5F

/-- The character with the code point of a byte. -/
def byteChar (b : UInt8) : Char := Char.ofNat b.toNat

/-- Is the character one that plain field data cannot hold? -/
def isUnsafe (c : Char) : Bool := c == '^' || c == '~' || Text.isAsciiControl c

/-- Does a content need escapes? -/
def needed (content : List Char) : Bool := content.any isUnsafe

/-! ## Writing -/

/-- An upper-case hex digit. -/
def upperDigit (n : Nat) : Char := (Nat.digitChar n).toUpper

/-- The escape of a character below U+0100. -/
def escape (indicator : UInt8) (c : Char) : List Char :=
  [byteChar indicator, upperDigit (c.toNat / 16), upperDigit (c.toNat % 16)]

/-- The content with escapes for unsafe characters and the indicator. -/
def encode (indicator : UInt8) (content : List Char) : List Char :=
  content.flatMap fun c => if isUnsafe c || c == byteChar indicator then escape indicator c else [c]

/-! ## Reading -/

/-- The value of a byte that is a hex digit. -/
def digit? (b : UInt8) : Option UInt8 :=
  if 0x30 ≤ b ∧ b ≤ 0x39 then some (b - 0x30)
  else if 0x41 ≤ b ∧ b ≤ 0x46 then some (b - 0x41 + 10)
  else if 0x61 ≤ b ∧ b ≤ 0x66 then some (b - 0x61 + 10)
  else none

/-- The byte of two hex digits. -/
def byte? (high low : UInt8) : Option UInt8 :=
  match digit? high, digit? low with
  | some h, some l => some (h * 16 + l)
  | _, _ => none

/-- What is wrong with an escape. -/
inductive Defect where
  /-- The two bytes after the indicator are not both hex digits. -/
  | invalid (first second : UInt8)
  /-- The text ends before two bytes. -/
  | incomplete
  deriving DecidableEq, Repr

/-- A malformed escape and the offset of its indicator in bytes. -/
structure Malformed where
  indicator : UInt8
  offset : Nat
  defect : Defect
  deriving DecidableEq, Repr

/-- The text of the error. -/
def Malformed.message (e : Malformed) : String :=
  match e.defect with
  | .invalid a b => "invalid hex escape sequence " ++ String.ofList [byteChar e.indicator, byteChar a, byteChar b]
  | .incomplete =>
    s!"incomplete hex escape sequence at offset {e.offset} (expected '" ++
      String.ofList [byteChar e.indicator] ++ "XX')"

/-- The bytes that a byte sequence stands for, one for each plain byte and each escape, or what is wrong there. -/
def units (indicator : UInt8) : Nat → List UInt8 → List (Except Malformed UInt8)
  | _, [] => []
  | offset, b :: bs =>
    if b = indicator then
      match bs with
      | h :: l :: rest =>
        (match byte? h l with
          | some v => .ok v
          | none => .error ⟨indicator, offset, .invalid h l⟩) :: units indicator (offset + 3) rest
      | _ => [.error ⟨indicator, offset, .incomplete⟩]
    else .ok b :: units indicator (offset + 1) bs

/-- The errors among the results. -/
def errors {ε α : Type} (rs : List (Except ε α)) : List ε :=
  rs.filterMap fun
    | .error e => some e
    | .ok _ => none

/-- The values among the results. -/
def values {ε α : Type} (rs : List (Except ε α)) : List α :=
  rs.filterMap fun
    | .error _ => none
    | .ok v => some v

/-- The bytes that a text stands for, or its malformed escapes in order. -/
def decode (indicator : UInt8) (content : List Char) : Except (List Malformed) (List UInt8) :=
  let us := units indicator 0 (Text.encode content)
  if (errors us).isEmpty then .ok (values us) else .error (errors us)

end ThermalLabel.HexEscape

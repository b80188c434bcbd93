import ThermalLabel.Text.Basic

/-!
# UTF-8

Offsets and spans count bytes of the UTF-8 form of a text, and field data with hex escapes decodes to bytes. Decoding
runs one byte at a time: `Owed` says how many continuation bytes the current character still needs and in which range
the next one must lie. Bytes that no character explains form an ill-formed part; each longest such part that begins
like a character counts once.

* `encode` is the UTF-8 form, `byteLength` its length.
* `decode?` reads well-formed bytes only; `decodeLossy` puts U+FFFD for each ill-formed part.
-/

namespace ThermalLabel.Text

/-- The number of bytes in the UTF-8 form. -/
def byteLength (cs : List Char) : Nat := cs.foldr (fun c n => c.utf8Size + n) 0

@[simp] theorem byteLength_nil : byteLength [] = 0 := rfl

@[simp] theorem byteLength_cons (c : Char) (cs : List Char) : byteLength (c :: cs) = c.utf8Size + byteLength cs := rfl

@[simp] theorem byteLength_append (a b : List Char) : byteLength (a ++ b) = byteLength a + byteLength b := by
  induction a with
  | nil => simp
  | cons c cs ih => simp [ih, Nat.add_assoc]

/-- The UTF-8 form of a text. -/
def encode (cs : List Char) : List UInt8 := cs.flatMap String.utf8EncodeChar

/-! ## Decoding -/

/-- What a character begun still needs: `count` further continuation bytes, the next of them from `low` to `high`. -/
structure Owed where
  count : Nat
  low : UInt8
  high : UInt8
  value : Nat

/-- What one byte does: end a character, leave one begun, or fit nowhere. -/
inductive Byte where
  | ends (c : Char)
  | begins (o : Owed)
  | stray

/-- The effect of a byte between characters. -/
def leadByte (b : UInt8) : Byte :=
  let n := b.toNat
  if n < 0x80 then .ends (Char.ofNat n)
  else if n < 0xC2 then .stray
  else if n < 0xE0 then .begins ⟨1, 0x80, 0xBF, n - 0xC0⟩
  else if n = 0xE0 then .begins ⟨2, 0xA0, 0xBF, 0⟩
  else if n = 0xED then .begins ⟨2, 0x80, 0x9F, 0xD⟩
  else if n < 0xF0 then .begins ⟨2, 0x80, 0xBF, n - 0xE0⟩
  else if n = 0xF0 then .begins ⟨3, 0x90, 0xBF, 0⟩
  else if n < 0xF4 then .begins ⟨3, 0x80, 0xBF, n - 0xF0⟩
  else if n = 0xF4 then .begins ⟨3, 0x80, 0x8F, 4⟩
  else .stray

/-- The effect of a byte inside a character. -/
def Owed.next (o : Owed) (b : UInt8) : Byte :=
  let value := o.value * 64 + (b.toNat - 0x80)
  if o.low ≤ b ∧ b ≤ o.high then
    if o.count ≤ 1 then .ends (Char.ofNat value) else .begins ⟨o.count - 1, 0x80, 0xBF, value⟩
  else .stray

/-- The characters of a byte sequence, with `none` for each ill-formed part. -/
def decodeParts : Option Owed → List UInt8 → List (Option Char)
  | none, [] => []
  | some _, [] => [none]
  | none, b :: bs =>
    match leadByte b with
    | .ends c => some c :: decodeParts none bs
    | .begins o => decodeParts (some o) bs
    | .stray => none :: decodeParts none bs
  | some o, b :: bs =>
    match o.next b with
    | .ends c => some c :: decodeParts none bs
    | .begins o' => decodeParts (some o') bs
    | .stray =>
      match leadByte b with
      | .ends c => none :: some c :: decodeParts none bs
      | .begins o' => none :: decodeParts (some o') bs
      | .stray => none :: none :: decodeParts none bs

/-- The text whose UTF-8 form is `bytes`, if there is one. -/
def decode? (bytes : List UInt8) : Option (List Char) := (decodeParts none bytes).mapM id

/-- The text of `bytes`, with U+FFFD in place of each ill-formed part. -/
def decodeLossy (bytes : List UInt8) : List Char := (decodeParts none bytes).map (·.getD '\uFFFD')

end ThermalLabel.Text

import ThermalLabel.Text.Utf8

/-!
# Decoding undoes encoding

A lead byte says how many continuation bytes a character still needs, and each continuation byte adds six bits to its
value. So the bytes of a character decode to it whatever follows (`decodeParts_utf8EncodeChar`), and the UTF-8 form of a
text decodes to the text (`decodeLossy_encode`).
-/

namespace ThermalLabel.Text

/-- The number that a byte written from it has. -/
theorem toNat_byte {n : Nat} (h : n < 256) : (UInt8.ofNat n).toNat = n := UInt8.toNat_ofNat_of_lt' h

/-! ## Bytes of characters -/

theorem encode_append (a b : List Char) : encode (a ++ b) = encode a ++ encode b :=
  List.flatMap_append

/-- The UTF-8 form of a string is what it is held as. -/
theorem encode_toList (s : String) : encode s.toList = s.toUTF8.data.toList := by
  show _ = s.toByteArray.data.toList
  rw [← String.utf8Encode_toList, List.utf8Encode, List.data_toByteArray]
  rfl

/-- An ASCII character is one byte. -/
theorem utf8EncodeChar_ascii {c : Char} (h : c.toNat < 0x80) :
    String.utf8EncodeChar c = [UInt8.ofNat c.toNat] := by
  have hc : c.val.toNat = c.toNat := rfl
  simp only [String.utf8EncodeChar, hc]
  rw [if_pos (by omega)]

/-- The bytes of any other character are beyond ASCII. -/
theorem utf8EncodeChar_beyond {c : Char} (h : 0x80 ≤ c.toNat) : ∀ b ∈ String.utf8EncodeChar c, 0x80 ≤ b.toNat := by
  have hc : c.val.toNat = c.toNat := rfl
  intro b hb
  simp only [String.utf8EncodeChar, hc] at hb
  rw [if_neg (by omega)] at hb
  split at hb
  · simp only [List.mem_cons, List.not_mem_nil, or_false] at hb
    rcases hb with rfl | rfl <;> rw [toNat_byte (by omega)] <;> omega
  split at hb
  · simp only [List.mem_cons, List.not_mem_nil, or_false] at hb
    rcases hb with rfl | rfl | rfl <;> rw [toNat_byte (by omega)] <;> omega
  · simp only [List.mem_cons, List.not_mem_nil, or_false] at hb
    rcases hb with rfl | rfl | rfl | rfl <;> rw [toNat_byte (by omega)] <;> omega

/-! ## Lead bytes -/

theorem leadByte_ascii {n : Nat} (h : n < 0x80) : leadByte (UInt8.ofNat n) = .ends (Char.ofNat n) := by
  simp only [leadByte]
  rw [toNat_byte (by omega), if_pos h]

/-- The lead byte of a character of two bytes. -/
theorem leadByte_two {m : Nat} (hl : 2 ≤ m) (hu : m < 32) :
    leadByte (UInt8.ofNat (m + 0xC0)) = .begins ⟨1, 0x80, 0xBF, m⟩ := by
  simp only [leadByte]
  rw [toNat_byte (by omega), if_neg (by omega), if_neg (by omega), if_pos (by omega), Nat.add_sub_cancel]

/-- The lead byte of a character of three bytes: overlong forms and surrogates are ruled out by the next byte. -/
theorem leadByte_three {m : Nat} (h : m < 16) : leadByte (UInt8.ofNat (m + 0xE0)) =
    .begins ⟨2, if m = 0 then 0xA0 else 0x80, if m = 0xD then 0x9F else 0xBF, m⟩ := by
  simp only [leadByte]
  rw [toNat_byte (by omega), if_neg (by omega), if_neg (by omega), if_neg (by omega)]
  by_cases h0 : m = 0
  · subst h0; rfl
  by_cases hd : m = 0xD
  · subst hd; rfl
  rw [if_neg (by omega), if_neg (by omega), if_pos (by omega), if_neg h0, if_neg hd, Nat.add_sub_cancel]

/-- The lead byte of a character of four bytes: overlong forms and values too large are ruled out by the next byte. -/
theorem leadByte_four {m : Nat} (h : m < 5) : leadByte (UInt8.ofNat (m + 0xF0)) =
    .begins ⟨3, if m = 0 then 0x90 else 0x80, if m = 4 then 0x8F else 0xBF, m⟩ := by
  match m, h with
  | 0, _ | 1, _ | 2, _ | 3, _ | 4, _ => rfl

/-! ## Continuation bytes -/

/-- A continuation byte in range adds its six bits. -/
theorem Owed.next_byte {o : Owed} {m : Nat} (hl : o.low.toNat ≤ m + 0x80) (hu : m + 0x80 ≤ o.high.toNat) :
    o.next (UInt8.ofNat (m + 0x80)) =
      if o.count ≤ 1 then .ends (Char.ofNat (o.value * 64 + m))
      else .begins ⟨o.count - 1, 0x80, 0xBF, o.value * 64 + m⟩ := by
  have hb : (UInt8.ofNat (m + 0x80)).toNat = m + 0x80 := by
    have := o.high.toNat_lt
    exact toNat_byte (by omega)
  simp only [Owed.next]
  rw [if_pos ⟨UInt8.le_iff_toNat_le.2 (by omega), UInt8.le_iff_toNat_le.2 (by omega)⟩, hb, Nat.add_sub_cancel]

/-- The last continuation byte ends the character. -/
theorem decodeParts_last {low high : UInt8} {value m : Nat} (bs : List UInt8) (hl : low.toNat ≤ m + 0x80)
    (hu : m + 0x80 ≤ high.toNat) :
    decodeParts (some ⟨1, low, high, value⟩) (UInt8.ofNat (m + 0x80) :: bs) =
      some (Char.ofNat (value * 64 + m)) :: decodeParts none bs := by
  rw [decodeParts, Owed.next_byte hl hu]
  rfl

/-- A continuation byte before the last leaves the character begun. -/
theorem decodeParts_more (count : Nat) {low high : UInt8} {value m : Nat} (bs : List UInt8)
    (hl : low.toNat ≤ m + 0x80) (hu : m + 0x80 ≤ high.toNat) :
    decodeParts (some ⟨count + 2, low, high, value⟩) (UInt8.ofNat (m + 0x80) :: bs) =
      decodeParts (some ⟨count + 1, 0x80, 0xBF, value * 64 + m⟩) bs := by
  rw [decodeParts, Owed.next_byte hl hu, if_neg (by simp)]
  rfl

/-! ## Sequences -/

theorem decodeParts_two {n : Nat} (hl : 0x80 ≤ n) (hu : n < 0x800) (bs : List UInt8) :
    decodeParts none (UInt8.ofNat (n / 64 % 32 + 0xC0) :: UInt8.ofNat (n % 64 + 0x80) :: bs) =
      some (Char.ofNat n) :: decodeParts none bs := by
  have h80 : (0x80 : UInt8).toNat = 0x80 := rfl
  have hbf : (0xBF : UInt8).toNat = 0xBF := rfl
  rw [decodeParts, leadByte_two (by omega) (by omega)]
  show decodeParts (some _) _ = _
  rw [decodeParts_last _ (by omega) (by omega), show n / 64 % 32 * 64 + n % 64 = n by omega]

theorem decodeParts_three {n : Nat} (hl : 0x800 ≤ n) (hu : n < 0x10000) (hs : n < 0xD800 ∨ 0xDFFF < n)
    (bs : List UInt8) : decodeParts none (UInt8.ofNat (n / 4096 % 16 + 0xE0) :: UInt8.ofNat (n / 64 % 64 + 0x80) ::
      UInt8.ofNat (n % 64 + 0x80) :: bs) = some (Char.ofNat n) :: decodeParts none bs := by
  have h80 : (0x80 : UInt8).toNat = 0x80 := rfl
  have hbf : (0xBF : UInt8).toNat = 0xBF := rfl
  rw [decodeParts, leadByte_three (by omega)]
  show decodeParts (some _) _ = _
  rw [decodeParts_more 0, decodeParts_last _ (by omega) (by omega),
    show (n / 4096 % 16 * 64 + n / 64 % 64) * 64 + n % 64 = n by omega]
  -- an overlong form would have a value below `0x800`
  · split
    · show 0xA0 ≤ _; omega
    · show 0x80 ≤ _; omega
  -- a surrogate would have one from `0xD800` to `0xDFFF`
  · split
    · show _ ≤ 0x9F; omega
    · show _ ≤ 0xBF; omega

theorem decodeParts_four {n : Nat} (hl : 0x10000 ≤ n) (hu : n < 0x110000) (bs : List UInt8) :
    decodeParts none (UInt8.ofNat (n / 262144 % 8 + 0xF0) :: UInt8.ofNat (n / 4096 % 64 + 0x80) ::
      UInt8.ofNat (n / 64 % 64 + 0x80) :: UInt8.ofNat (n % 64 + 0x80) :: bs) =
        some (Char.ofNat n) :: decodeParts none bs := by
  have h80 : (0x80 : UInt8).toNat = 0x80 := rfl
  have hbf : (0xBF : UInt8).toNat = 0xBF := rfl
  rw [decodeParts, leadByte_four (by omega)]
  show decodeParts (some _) _ = _
  rw [decodeParts_more 1, decodeParts_more 0 _ (by omega) (by omega), decodeParts_last _ (by omega) (by omega),
    show ((n / 262144 % 8 * 64 + n / 4096 % 64) * 64 + n / 64 % 64) * 64 + n % 64 = n by omega]
  · split
    · show 0x90 ≤ _; omega
    · show 0x80 ≤ _; omega
  · split
    · show _ ≤ 0x8F; omega
    · show _ ≤ 0xBF; omega

/-! ## Characters and texts -/

/-- A code point is in one of the two ranges around the surrogates. -/
theorem toNat_ranges (c : Char) : c.toNat < 0xD800 ∨ (0xDFFF < c.toNat ∧ c.toNat < 0x110000) := c.valid

/-- **The bytes of a character decode to it.** -/
theorem decodeParts_utf8EncodeChar (c : Char) (bs : List UInt8) :
    decodeParts none (String.utf8EncodeChar c ++ bs) = some c :: decodeParts none bs := by
  have hr := toNat_ranges c
  have hc : c.val.toNat = c.toNat := rfl
  simp only [String.utf8EncodeChar, hc]
  by_cases h1 : c.toNat ≤ 0x7F
  · rw [if_pos h1, List.cons_append, decodeParts, leadByte_ascii (by omega), Char.ofNat_toNat]
    rfl
  rw [if_neg h1]
  by_cases h2 : c.toNat ≤ 0x7FF
  · rw [if_pos h2]
    have hread := decodeParts_two (n := c.toNat) (by omega) (by omega) bs
    rw [Char.ofNat_toNat] at hread
    exact hread
  rw [if_neg h2]
  by_cases h3 : c.toNat ≤ 0xFFFF
  · rw [if_pos h3]
    have hread := decodeParts_three (n := c.toNat) (by omega) (by omega) (by omega) bs
    rw [Char.ofNat_toNat] at hread
    exact hread
  · rw [if_neg h3]
    have hread := decodeParts_four (n := c.toNat) (by omega) (by omega) bs
    rw [Char.ofNat_toNat] at hread
    exact hread

theorem decodeParts_encode : ∀ cs : List Char, decodeParts none (encode cs) = cs.map some
  | [] => rfl
  | c :: cs => by
    rw [encode, List.flatMap_cons, decodeParts_utf8EncodeChar, List.map_cons, ← decodeParts_encode cs]
    rfl

/-- **The UTF-8 form of a text decodes to the text.** -/
theorem decodeLossy_encode (cs : List Char) : decodeLossy (encode cs) = cs := by
  rw [decodeLossy, decodeParts_encode, List.map_map]
  exact List.map_id cs

end ThermalLabel.Text

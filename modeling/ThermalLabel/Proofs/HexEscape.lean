import ThermalLabel.HexEscape
import ThermalLabel.Proofs.Text.Utf8

/-!
# Hex escapes are undone

An ASCII indicator and two digits stand for one ASCII character, and no byte of any other character is the indicator.
So what is written decodes to the bytes of the content (`decode_encode`), and with a safe indicator it is safe as plain
field data (`isUnsafe_of_mem_encode`). Both are said of strings by `encode_reversible`.
-/

namespace ThermalLabel.HexEscape

variable {indicator : UInt8}

/-! ## Digits -/

theorem toNat_byteChar (b : UInt8) : (byteChar b).toNat = b.toNat := by
  have := b.toNat_lt
  have hv : b.toNat.isValidChar := Or.inl (by omega)
  rw [byteChar, Char.ofNat, dif_pos hv]
  rfl

/-- A hex digit is an ASCII character other than leaders and controls. -/
theorem upperDigit_safe {n : Nat} (h : n < 16) : (upperDigit n).toNat < 0x80 ∧ isUnsafe (upperDigit n) = false := by
  revert n
  decide

/-- A hex digit has the value it was written for. -/
theorem digit?_upperDigit {n : Nat} (h : n < 16) :
    digit? (UInt8.ofNat (upperDigit n).toNat) = some (UInt8.ofNat n) := by
  revert n
  decide

/-- The two digits of an ASCII character are its byte. -/
theorem byte?_upperDigit {n : Nat} (h : n < 0x80) :
    byte? (UInt8.ofNat (upperDigit (n / 16)).toNat) (UInt8.ofNat (upperDigit (n % 16)).toNat) =
      some (UInt8.ofNat n) := by
  rw [byte?, digit?_upperDigit (by omega), digit?_upperDigit (by omega)]
  have hn : (UInt8.ofNat (n / 16) * 16 + UInt8.ofNat (n % 16)) = UInt8.ofNat n := by
    rw [show (16 : UInt8) = UInt8.ofNat 16 from rfl, ← UInt8.ofNat_mul, ← UInt8.ofNat_add]
    congr 1
    omega
  simp only [hn]

/-! ## Reading what was written -/

/-- A byte other than the indicator stands for itself. -/
theorem units_cons_of_ne {b : UInt8} (h : b ≠ indicator) (offset : Nat) (bs : List UInt8) :
    units indicator offset (b :: bs) = .ok b :: units indicator (offset + 1) bs := by
  rw [units.eq_def]
  simp [h]

/-- Bytes other than the indicator stand for themselves. -/
theorem units_plain (rest : List UInt8) : ∀ {bs : List UInt8} (offset : Nat), (∀ b ∈ bs, b ≠ indicator) →
    units indicator offset (bs ++ rest) = bs.map .ok ++ units indicator (offset + bs.length) rest
  | [], _, _ => rfl
  | b :: bs, offset, h => by
    rw [List.cons_append, units_cons_of_ne (h b List.mem_cons_self),
      units_plain rest (offset + 1) fun x hx => h x (List.mem_cons_of_mem _ hx), List.length_cons,
      Nat.add_assoc offset, Nat.add_comm 1, List.map_cons, List.cons_append]

/-- The escape of an ASCII character stands for its byte. -/
theorem units_escape {c : Char} (hi : indicator.toNat < 0x80) (hc : c.toNat < 0x80) (offset : Nat)
    (rest : List UInt8) : units indicator offset (Text.encode (escape indicator c) ++ rest) =
      .ok (UInt8.ofNat c.toNat) :: units indicator (offset + 3) rest := by
  have hind : (byteChar indicator).toNat < 0x80 := by rw [toNat_byteChar]; exact hi
  obtain ⟨hhigh, -⟩ := upperDigit_safe (n := c.toNat / 16) (by omega)
  obtain ⟨hlow, -⟩ := upperDigit_safe (n := c.toNat % 16) (by omega)
  have hbytes : Text.encode (escape indicator c) =
      [indicator, UInt8.ofNat (upperDigit (c.toNat / 16)).toNat, UInt8.ofNat (upperDigit (c.toNat % 16)).toNat] := by
    simp only [Text.encode, escape, List.flatMap_cons, List.flatMap_nil, Text.utf8EncodeChar_ascii hind,
      Text.utf8EncodeChar_ascii hhigh, Text.utf8EncodeChar_ascii hlow, List.cons_append, List.nil_append,
      toNat_byteChar, UInt8.ofNat_toNat]
  rw [hbytes, List.cons_append, List.cons_append, List.cons_append, List.nil_append, units, if_pos rfl,
    byte?_upperDigit hc]

/-- An escaped character is ASCII. -/
theorem toNat_lt_of_escaped {c : Char} (hi : indicator.toNat < 0x80)
    (h : (isUnsafe c || c == byteChar indicator) = true) : c.toNat < 0x80 := by
  simp only [isUnsafe, Text.isAsciiControl, Bool.or_eq_true, beq_iff_eq, decide_eq_true_eq] at h
  rcases h with ((rfl | rfl) | h | h) | rfl
  · decide
  · decide
  · omega
  · omega
  · rw [toNat_byteChar]; exact hi

/-- No byte of a character other than the indicator is the indicator. -/
theorem ne_indicator_of_mem {c : Char} (hi : indicator.toNat < 0x80) (hc : c ≠ byteChar indicator) :
    ∀ b ∈ String.utf8EncodeChar c, b ≠ indicator := by
  intro b hb he
  subst he
  by_cases h : c.toNat < 0x80
  · rw [Text.utf8EncodeChar_ascii h, List.mem_singleton] at hb
    apply hc
    rw [hb, byteChar, Text.toNat_byte (by omega), Char.ofNat_toNat]
  · have := Text.utf8EncodeChar_beyond (by omega) b hb
    omega

/-- A written content is read as its bytes. -/
theorem units_encode (hi : indicator.toNat < 0x80) : ∀ (content : List Char) (offset : Nat),
    units indicator offset (Text.encode (encode indicator content)) = (Text.encode content).map .ok
  | [], _ => rfl
  | c :: cs, offset => by
    have hsplit : Text.encode (c :: cs) = String.utf8EncodeChar c ++ Text.encode cs := rfl
    rw [encode, List.flatMap_cons, Text.encode_append, hsplit, List.map_append]
    by_cases h : (isUnsafe c || c == byteChar indicator) = true
    · have hc := toNat_lt_of_escaped hi h
      rw [if_pos h, units_escape hi hc, Text.utf8EncodeChar_ascii hc]
      exact congrArg _ (units_encode hi cs (offset + 3))
    · have hne : c ≠ byteChar indicator := by
        rintro rfl
        simp at h
      rw [if_neg h, show Text.encode [c] = String.utf8EncodeChar c by simp [Text.encode],
        units_plain _ _ (ne_indicator_of_mem hi hne)]
      exact congrArg _ (units_encode hi cs _)

theorem errors_ok {ε α : Type} (vs : List α) : errors (vs.map (Except.ok (ε := ε))) = [] := by
  simp [errors]

theorem values_ok {ε α : Type} (vs : List α) : values (vs.map (Except.ok (ε := ε))) = vs := by
  rw [values, List.filterMap_map]
  exact List.filterMap_some

/-- **What is written with an ASCII indicator decodes to the bytes of the content.** -/
theorem decode_encode (hi : indicator.toNat < 0x80) (content : List Char) :
    decode indicator (encode indicator content) = .ok (Text.encode content) := by
  rw [decode, units_encode hi, errors_ok, values_ok]
  rfl

/-- With a safe indicator, nothing that is written is unsafe. -/
theorem isUnsafe_of_mem_encode (hi : indicator.toNat < 0x80) (hs : isUnsafe (byteChar indicator) = false)
    {content : List Char} {x : Char} (hx : x ∈ encode indicator content) : isUnsafe x = false := by
  obtain ⟨c, -, hx⟩ := List.mem_flatMap.1 hx
  split at hx
  · have := toNat_lt_of_escaped hi (by assumption)
    simp only [escape, List.mem_cons, List.not_mem_nil, or_false] at hx
    rcases hx with rfl | rfl | rfl
    · exact hs
    · exact (upperDigit_safe (by omega)).2
    · exact (upperDigit_safe (by omega)).2
  · rename_i h
    rw [List.mem_singleton.1 hx]
    exact (Bool.or_eq_false_iff.1 (Bool.eq_false_iff.2 h)).1

/--
**Escapes are undone and safe.** With any ASCII indicator, be it a hex digit, a control character or a leader, what is
written decodes to the bytes of the content; with the usual one, nothing that is written is a leader or a control
character.
-/
theorem encode_reversible (content : String) :
    (∀ indicator : UInt8, indicator.toNat < 128 →
      decode indicator (encode indicator content.toList) = .ok content.toUTF8.data.toList) ∧
      ∀ c ∈ encode defaultIndicator content.toList, c ≠ '^' ∧ c ≠ '~' ∧ Text.isAsciiControl c = false := by
  constructor
  · intro indicator hi
    rw [decode_encode hi, Text.encode_toList]
  · have hi : defaultIndicator.toNat < 0x80 := by decide
    have hs : isUnsafe (byteChar defaultIndicator) = false := by decide
    intro c hc
    have hsafe := isUnsafe_of_mem_encode hi hs hc
    simpa [isUnsafe, and_assoc] using hsafe

/-- The indicator may be a hex digit: then each one in the content is escaped, and so is what stands for it. -/
theorem encode_reversible_of_digit :
    let content := "7A^"
    (0x37 : UInt8).toNat < 128 ∧ encode 0x37 content.toList = "737A75E".toList ∧
      decode 0x37 (encode 0x37 content.toList) = .ok content.toUTF8.data.toList := by
  intro content
  have hi : (0x37 : UInt8).toNat < 128 := by decide
  exact ⟨hi, by decide, (encode_reversible content).1 0x37 hi⟩

end ThermalLabel.HexEscape

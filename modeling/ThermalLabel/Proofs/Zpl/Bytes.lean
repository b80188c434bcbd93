import ThermalLabel.Proofs.HexEscape
import ThermalLabel.Proofs.Text.Slice
import ThermalLabel.Zpl.Token

/-!
# Tokens cut at bytes

Token boundaries can be found in the bytes of a program, without decoding them: every character that bounds a token is
ASCII, and no byte of any other character is taken for one (`ByteClass`). So a lexer that looks at bytes and cuts the
program at their offsets never cuts a character, and **finds the tokens** (`cutTokens_eq`).
-/

namespace ThermalLabel.Zpl

open HexEscape (byteChar)

/-! ## Classes of bytes -/

/-- A class of characters that contains the bytes of a character, taken for characters, if it contains the character. -/
def ByteClass (p : Char → Bool) : Prop := ∀ c : Char, ∀ b ∈ String.utf8EncodeChar c, p (byteChar b) = p c

/-- A byte of a character stands for an ASCII character only if it is that character. -/
theorem beq_byteChar {c d : Char} {b : UInt8} (hb : b ∈ String.utf8EncodeChar c) (hd : d.toNat < 0x80) :
    (byteChar b == d) = (c == d) := by
  by_cases hc : c.toNat < 0x80
  · rw [Text.utf8EncodeChar_ascii hc, List.mem_singleton] at hb
    rw [hb, byteChar, Text.toNat_byte (by omega), Char.ofNat_toNat]
  · have hbyte := Text.utf8EncodeChar_beyond (by omega) b hb
    have hvalue := HexEscape.toNat_byteChar b
    have hne : c ≠ d ∧ byteChar b ≠ d := by
      constructor
      · rintro rfl
        omega
      · rintro rfl
        omega
    rw [beq_false_of_ne hne.1, beq_false_of_ne hne.2]

theorem byteChar_eq_iff {c d : Char} {b : UInt8} (hb : b ∈ String.utf8EncodeChar c) (hd : d.toNat < 0x80) :
    byteChar b = d ↔ c = d := by
  rw [← beq_iff_eq, beq_byteChar hb hd, beq_iff_eq]

theorem byteClass_isLeader : ByteClass isLeader := by
  intro c b hb
  simp (disch := decide) only [isLeader, beq_byteChar hb]

theorem byteClass_isInnerBlank : ByteClass isInnerBlank := by
  intro c b hb
  simp (disch := decide) only [isInnerBlank, Text.isAsciiBlank, isLineBreak, beq_byteChar hb]

theorem byteClass_isValueChar : ByteClass isValueChar := by
  intro c b hb
  simp (disch := decide) only [isValueChar, isLeader, isLineBreak, beq_byteChar hb]

/-- A character that ends a value, or a blank, is ASCII. -/
theorem toNat_lt_of_bound {c : Char} (h : isValueChar c = false ∨ isInnerBlank c = true) : c.toNat < 0x80 := by
  simp only [isValueChar, isLeader, isLineBreak, isInnerBlank, Text.isAsciiBlank, Bool.not_eq_false', Bool.or_eq_true,
    Bool.and_eq_true, beq_iff_eq] at h
  rcases h with (((rfl | rfl) | rfl) | rfl | rfl) | ⟨(((rfl | rfl) | rfl) | rfl) | rfl, -⟩
  all_goals decide

/-- A character has at least one byte. -/
theorem exists_utf8EncodeChar (c : Char) : ∃ b bs, String.utf8EncodeChar c = b :: bs := by
  have hlength := String.length_utf8EncodeChar c
  have hpos := c.utf8Size_pos
  cases h : String.utf8EncodeChar c with
  | nil =>
    rw [h, List.length_nil] at hlength
    omega
  | cons b bs => exact ⟨b, bs, rfl⟩

theorem encode_cons (c : Char) (cs : List Char) : Text.encode (c :: cs) = String.utf8EncodeChar c ++ Text.encode cs :=
  rfl

theorem length_encode (cs : List Char) : (Text.encode cs).length = Text.byteLength cs := by
  induction cs with
  | nil => rfl
  | cons c cs ih => rw [encode_cons, List.length_append, ih, String.length_utf8EncodeChar, Text.byteLength_cons]

/-- A run of bytes of a class is the bytes of a run of characters. -/
theorem takeWhile_encode {p : Char → Bool} (h : ByteClass p) (cs : List Char) :
    (Text.encode cs).takeWhile (fun b => p (byteChar b)) = Text.encode (cs.takeWhile p) := by
  induction cs with
  | nil => rfl
  | cons c cs ih =>
    rw [encode_cons]
    by_cases hc : p c = true
    · rw [List.takeWhile_append_of_pos fun b hb => (h c b hb).trans hc, ih, List.takeWhile_cons_of_pos hc, encode_cons]
    · obtain ⟨b, bs, hbytes⟩ := exists_utf8EncodeChar c
      have hb : p (byteChar b) = p c := h c b (by rw [hbytes]; exact List.mem_cons_self)
      rw [hbytes, List.cons_append, List.takeWhile_cons_of_neg (by rw [hb]; exact hc), List.takeWhile_cons_of_neg hc]
      rfl

theorem encode_cons_ascii {c : Char} (h : c.toNat < 0x80) (cs : List Char) :
    Text.encode (c :: cs) = UInt8.ofNat c.toNat :: Text.encode cs := by
  rw [encode_cons, Text.utf8EncodeChar_ascii h]
  rfl

theorem utf8Size_ascii {c : Char} (h : c.toNat < 0x80) : c.utf8Size = 1 := by
  rw [← String.length_utf8EncodeChar, Text.utf8EncodeChar_ascii h]
  rfl

/-- Bytes that begin with an ASCII byte are those of a text that begins with its character. -/
theorem exists_of_encode_cons {b : UInt8} {bs : List UInt8} {cs : List Char} (h : Text.encode cs = b :: bs)
    (hb : b.toNat < 0x80) : ∃ rest, cs = byteChar b :: rest ∧ Text.encode rest = bs := by
  cases cs with
  | nil => cases h
  | cons c cs =>
    by_cases hc : c.toNat < 0x80
    · rw [encode_cons_ascii hc] at h
      obtain ⟨rfl, rfl⟩ := List.cons.inj h
      refine ⟨cs, ?_, rfl⟩
      rw [byteChar, Text.toNat_byte (by omega), Char.ofNat_toNat]
    · obtain ⟨b', bs', hbytes⟩ := exists_utf8EncodeChar c
      rw [encode_cons, hbytes, List.cons_append] at h
      obtain ⟨rfl, -⟩ := List.cons.inj h
      have hbeyond := Text.utf8EncodeChar_beyond (c := c) (by omega) b' (by rw [hbytes]; exact List.mem_cons_self)
      omega

/-- The bytes of a text begin with an ASCII character only if the text does. -/
theorem head?_encode_eq {d : Char} (hd : d.toNat < 0x80) {cs : List Char} :
    (Text.encode cs).head? = some (UInt8.ofNat d.toNat) ↔ cs.head? = some d := by
  rw [List.head?_eq_some_iff, List.head?_eq_some_iff]
  constructor
  · rintro ⟨bs, h⟩
    obtain ⟨rest, rfl, -⟩ := exists_of_encode_cons h (by rw [Text.toNat_byte (by omega)]; exact hd)
    exact ⟨rest, by rw [byteChar, Text.toNat_byte (by omega), Char.ofNat_toNat]⟩
  · rintro ⟨rest, rfl⟩
    exact ⟨Text.encode rest, encode_cons_ascii hd rest⟩

/-! ## Runs of bytes -/

/-- The class of the token that begins with a byte, and the number of bytes over which it goes on. -/
def firstRun (b : UInt8) (bs : List UInt8) : TokenKind × Nat :=
  if isLeader (byteChar b) then (.leader, 0)
  else if byteChar b = ',' then (.comma, 0)
  else if byteChar b = '\r' then (.lineBreak, if bs.head? = some 0x0A then 1 else 0)
  else if byteChar b = '\n' then (.lineBreak, 0)
  else if isInnerBlank (byteChar b) then (.blank, (bs.takeWhile fun b => isInnerBlank (byteChar b)).length)
  else (.value, (bs.takeWhile fun b => isValueChar (byteChar b)).length)

/-- **A token ends where its bytes end.** -/
theorem firstRun_encode {c : Char} {b : UInt8} {bs : List UInt8} (hc : String.utf8EncodeChar c = b :: bs)
    (cs : List Char) : firstRun b (bs ++ Text.encode cs) =
      ((firstToken c cs).1, bs.length + Text.byteLength (firstToken c cs).2.1) := by
  have hb : b ∈ String.utf8EncodeChar c := by
    rw [hc]
    exact List.mem_cons_self
  have hone : isValueChar c = false ∨ isInnerBlank c = true → bs = [] := by
    intro h
    rw [Text.utf8EncodeChar_ascii (toNat_lt_of_bound h)] at hc
    exact (List.cons.inj hc).2.symm
  simp (disch := decide) only [firstRun, firstToken, byteClass_isLeader c b hb, byteClass_isInnerBlank c b hb,
    byteChar_eq_iff hb]
  by_cases hleader : isLeader c = true
  · rw [if_pos hleader, if_pos hleader, hone (.inl (by simp [isValueChar, hleader]))]
    rfl
  rw [if_neg hleader, if_neg hleader]
  by_cases hcomma : c = ','
  · rw [if_pos hcomma, if_pos hcomma, hone (.inl (by rw [hcomma]; rfl))]
    rfl
  rw [if_neg hcomma, if_neg hcomma]
  by_cases hreturn : c = '\r'
  · rw [if_pos hreturn, if_pos hreturn, hone (.inl (by rw [hreturn]; rfl)), List.nil_append]
    -- a line feed after a carriage return belongs to it
    have hhead : (Text.encode cs).head? = some 0x0A ↔ cs.head? = some '\n' := head?_encode_eq (d := '\n') (by decide)
    by_cases hnext : cs.head? = some '\n'
    · obtain ⟨rest, rfl⟩ := List.head?_eq_some_iff.1 hnext
      rw [if_pos (hhead.2 hnext)]
      rfl
    · rw [if_neg (mt hhead.1 hnext)]
      split
      · exact absurd rfl hnext
      · rfl
  rw [if_neg hreturn, if_neg hreturn]
  by_cases hfeed : c = '\n'
  · rw [if_pos hfeed, if_pos hfeed, hone (.inl (by rw [hfeed]; rfl))]
    rfl
  rw [if_neg hfeed, if_neg hfeed]
  by_cases hblank : isInnerBlank c = true
  · rw [if_pos hblank, if_pos hblank, hone (.inr hblank), List.nil_append, takeWhile_encode byteClass_isInnerBlank,
      length_encode, List.length_nil, Nat.zero_add]
  · have hvalue : isValueChar c = true := by
      simp [isValueChar, isLineBreak, hleader, hcomma, hreturn, hfeed]
    have hbs : ∀ x ∈ bs, isValueChar (byteChar x) = true := by
      intro x hx
      rw [byteClass_isValueChar c x (by rw [hc]; exact List.mem_cons_of_mem _ hx), hvalue]
    rw [if_neg hblank, if_neg hblank, List.takeWhile_append_of_pos hbs, List.length_append,
      takeWhile_encode byteClass_isValueChar, length_encode]

/-! ## Cutting -/

/-- The tokens of the bytes from an offset of a program on, cut out of the program. -/
def cutTokens (program : List Char) (offset : Nat) : List UInt8 → Option (List Token)
  | [] => some []
  | b :: bs => do
    let n := (firstRun b bs).2
    let stop := offset + 1 + n
    let text ← Text.slice? program ⟨offset, stop⟩
    let ts ← cutTokens program stop (bs.drop n)
    return ⟨(firstRun b bs).1, text, offset⟩ :: ts
termination_by bs => bs.length
decreasing_by
  simp only [List.length_cons, List.length_drop]
  omega

/-- **The tokens of a program** are cut out of it at offsets found in its bytes, and no cut fails. -/
theorem cutTokens_eq (offset : Nat) (cs : List Char) : ∀ before : List Char, Text.byteLength before = offset →
    cutTokens (before ++ cs) offset (Text.encode cs) = some (tokens offset cs) := by
  fun_induction tokens offset cs with
  | case1 offset =>
    intro before _
    rw [Text.encode, List.flatMap_nil, cutTokens]
  | case2 offset c cs t ih =>
    intro before hbefore
    obtain ⟨b, bs, hbytes⟩ := exists_utf8EncodeChar c
    have hrun := firstRun_encode hbytes cs
    have hsplit := firstToken_append c cs
    have hsize : c.utf8Size = bs.length + 1 := by
      rw [← String.length_utf8EncodeChar, hbytes, List.length_cons]
    have hstop : offset + 1 + (bs.length + Text.byteLength (firstToken c cs).2.1) = t.stop := by
      show _ = offset + Text.byteLength (c :: (firstToken c cs).2.1)
      rw [Text.byteLength_cons]
      omega
    have htext : Text.slice? (before ++ c :: cs) ⟨offset, t.stop⟩ = some t.text := by
      refine Text.slice?_eq_some_iff.2 ⟨before, (firstToken c cs).2.2, ?_, ?_⟩
      · rw [List.append_assoc]
        exact congrArg (fun cs => before ++ c :: cs) hsplit.symm
      · rw [hbefore]
        rfl
    have hdrop : (bs ++ Text.encode cs).drop (bs.length + Text.byteLength (firstToken c cs).2.1) =
        Text.encode (firstToken c cs).2.2 := by
      have hencode : Text.encode cs = Text.encode (firstToken c cs).2.1 ++ Text.encode (firstToken c cs).2.2 := by
        rw [← Text.encode_append, hsplit]
      rw [← List.drop_drop, List.drop_left, ← length_encode, hencode, List.drop_left]
    have ih := ih (before ++ t.text) (by rw [Text.byteLength_append, hbefore]; rfl)
    rw [List.append_assoc, show t.text ++ (firstToken c cs).2.2 = c :: cs from congrArg (c :: ·) hsplit] at ih
    rw [encode_cons, hbytes, List.cons_append, cutTokens, hrun]
    simp only [hstop, htext, hdrop, ih]
    rfl

end ThermalLabel.Zpl

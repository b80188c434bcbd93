import ThermalLabel.Number.Word
import ThermalLabel.Proofs.Text.Fields

/-!
# Words of dots

A word is read back from its digits (`readWord_wordDigits`), and the clamping operations are the natural ones cut off at
the largest word. Of a side measured from a corner that may lie beyond the largest word, the part up to that word is
left (`subWord_addWord`). Above a word there is the next one, except above the largest (`addWord_one_le_iff`).
-/

namespace ThermalLabel

/-! ## Clamping -/

theorem toNat_clampWord (n : Nat) : (clampWord n).toNat = min n wordMax.toNat := by
  have hmax : wordMax.toNat = 4294967295 := rfl
  have hsize : UInt32.size = 4294967296 := rfl
  unfold clampWord
  split
  · rw [UInt32.toNat_ofNat_of_lt' (by assumption)]
    omega
  · omega

theorem toNat_le_wordMax (w : UInt32) : w.toNat ≤ wordMax.toNat := by
  have := w.toNat_lt
  have hmax : wordMax.toNat = 4294967295 := rfl
  omega

theorem toNat_addWord (a b : UInt32) : (addWord a b).toNat = min (a.toNat + b.toNat) wordMax.toNat :=
  toNat_clampWord _

theorem toNat_subWord (a b : UInt32) : (subWord a b).toNat = a.toNat - b.toNat := by
  have := a.toNat_lt
  rw [subWord, UInt32.toNat_ofNat_of_lt']
  show a.toNat - b.toNat < 4294967296
  omega

theorem toNat_min (a b : UInt32) : (min a b).toNat = min a.toNat b.toNat := by
  by_cases h : a ≤ b
  · rw [Nat.min_eq_left (UInt32.le_iff_toNat_le.1 h)]
    exact congrArg UInt32.toNat (if_pos h)
  · rw [Nat.min_eq_right (Nat.le_of_not_le (mt UInt32.le_iff_toNat_le.2 h))]
    exact congrArg UInt32.toNat (if_neg h)

theorem toNat_max (a b : UInt32) : (max a b).toNat = max a.toNat b.toNat := by
  by_cases h : a ≤ b
  · rw [Nat.max_eq_right (UInt32.le_iff_toNat_le.1 h)]
    exact congrArg UInt32.toNat (if_pos h)
  · rw [Nat.max_eq_left (Nat.le_of_not_le (mt UInt32.le_iff_toNat_le.2 h))]
    exact congrArg UInt32.toNat (if_neg h)

theorem le_max_word_left (a b : UInt32) : a ≤ max a b := by
  rw [UInt32.le_iff_toNat_le, toNat_max]
  exact Nat.le_max_left _ _

theorem le_max_word_right (a b : UInt32) : b ≤ max a b := by
  rw [UInt32.le_iff_toNat_le, toNat_max]
  exact Nat.le_max_right _ _

theorem max_word_le {a b n : UInt32} (ha : a ≤ n) (hb : b ≤ n) : max a b ≤ n := by
  rw [UInt32.le_iff_toNat_le, toNat_max]
  exact Nat.max_le.2 ⟨UInt32.le_iff_toNat_le.1 ha, UInt32.le_iff_toNat_le.1 hb⟩

/-- The part of a side that lies before the largest word. -/
theorem subWord_addWord (x w : UInt32) : subWord (addWord x w) x = min w (wordMax - x) := by
  have hx := toNat_le_wordMax x
  apply UInt32.toNat_inj.1
  rw [toNat_subWord, toNat_addWord, toNat_min, UInt32.toNat_sub_of_le _ _ (UInt32.le_iff_toNat_le.2 hx)]
  omega

/-- A fifth more is more, unless the word is the largest. -/
theorem addWord_fifthUp_le_self {w : UInt32} (h : w ≠ 0) : addWord w (fifthUp w) ≤ w ↔ w = wordMax := by
  have hw := toNat_le_wordMax w
  have h0 : w.toNat ≠ 0 := fun e => h (UInt32.toNat_inj.1 e)
  have hmax : wordMax.toNat = 4294967295 := rfl
  have hfifth : (fifthUp w).toNat = (w.toNat + 4) / 5 := by
    rw [fifthUp, UInt32.toNat_ofNat_of_lt']
    show (w.toNat + 4) / 5 < 4294967296
    omega
  rw [UInt32.le_iff_toNat_le, ← UInt32.toNat_inj, toNat_addWord, hfifth]
  omega

/-! ## The next word -/

theorem not_wordMax_lt (w : UInt32) : ¬wordMax < w := by
  rw [UInt32.lt_iff_toNat_lt]
  exact Nat.not_lt.2 (toNat_le_wordMax w)

theorem lt_wordMax {w : UInt32} (h : w ≠ wordMax) : w < wordMax := by
  have hle := toNat_le_wordMax w
  rw [Ne, ← UInt32.toNat_inj] at h
  rw [UInt32.lt_iff_toNat_lt]
  omega

theorem le_addWord_one (w : UInt32) : w ≤ addWord w 1 := by
  have hw := toNat_le_wordMax w
  rw [UInt32.le_iff_toNat_le, toNat_addWord]
  exact Nat.le_min.2 ⟨Nat.le_add_right _ _, hw⟩

/-- The next word is not above `n` exactly if the word is below `n` or `n` is the largest. -/
theorem addWord_one_le_iff {w n : UInt32} : addWord w 1 ≤ n ↔ w < n ∨ n = wordMax := by
  have hn := toNat_le_wordMax n
  have hone : (1 : UInt32).toNat = 1 := rfl
  rw [UInt32.le_iff_toNat_le, UInt32.lt_iff_toNat_lt, ← UInt32.toNat_inj, toNat_addWord, hone]
  omega

/-! ## Digits -/

theorem isDigit_of_mem_decimal {n : Nat} {c : Char} (h : c ∈ decimal n) : c.isDigit = true :=
  Nat.isDigit_of_mem_toDigits (by decide) (by decide) h

theorem decimal_ne_nil (n : Nat) : decimal n ≠ [] := Nat.toDigits_ne_nil

/-- A digit is a character from `0` to `9`. -/
theorem toNat_of_isDigit {c : Char} (h : c.isDigit = true) : 48 ≤ c.toNat ∧ c.toNat ≤ 57 := by
  simpa [Char.isDigit, UInt32.le_iff_toNat_le] using h

theorem isBlank_of_isDigit {c : Char} (h : c.isDigit = true) : Text.isBlank c = false := by
  obtain ⟨hl, hu⟩ := toNat_of_isDigit h
  simp only [Text.isBlank, Bool.or_eq_false_iff, Bool.and_eq_false_iff, decide_eq_false_iff_not, beq_eq_false_iff_ne]
  omega

/-- Digits are tidy. -/
theorem tidy_decimal (n : Nat) : Text.Tidy (decimal n) :=
  Text.tidy_of_all (decimal_ne_nil n) fun _ hc => isBlank_of_isDigit (isDigit_of_mem_decimal hc)

/-- Digits have no sign. -/
theorem readNatural_decimal (n : Nat) : readNatural (decimal n) = some n := by
  rw [← readDigits_decimal n]
  unfold readNatural
  split
  · rename_i cs h
    have hplus : '+' ∈ decimal n := by rw [h]; exact List.mem_cons_self
    exact absurd (isDigit_of_mem_decimal hplus) (by decide)
  · rfl

theorem readBounded_decimal {bound n : Nat} (h : n ≤ bound) : readBounded bound (decimal n) = some n := by
  rw [readBounded, readNatural_decimal]
  simp [h]

/-- **A word is read back from its digits.** -/
theorem readWord_wordDigits (w : UInt32) : readWord (wordDigits w) = some w := by
  rw [readWord, wordDigits, readBounded_decimal (toNat_le_wordMax w), Option.map_some, UInt32.ofNat_toNat]

end ThermalLabel

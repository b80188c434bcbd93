import ThermalLabel.Proofs.Json.Literal

/-!
# Numbers of written documents

Integers and finite doubles are written as proper literals (`Literal.proper_ofInt`, `Literal.proper_ofBinary64`), so
their texts are read back digit by digit. **The literal of an integer from `-2 ^ 63` to `2 ^ 64 - 1` denotes that
integer** (`Literal.numeric?_ofNat`, `Literal.numeric?_ofInt`). Of a double only the digits are said to be read back
here: the number they denote is rounded once more.
-/

namespace ThermalLabel

namespace Literal

/-! ## Integers -/

/-- Only the digits of zero begin with a zero. -/
theorem eq_zero_of_head_decimal {n : Nat} (h : (decimal n).head? = some '0') : n = 0 := by
  induction n using Nat.strongRecOn with
  | ind n ih =>
    by_cases hn : n < 10
    · rw [decimal, Nat.toDigits_of_lt_base hn] at h
      exact Nat.digitChar_eq_zero.1 (Option.some.inj h)
    · obtain ⟨d, ds, hds⟩ := List.exists_cons_of_ne_nil (decimal_ne_nil (n / 10))
      have hsplit : decimal n = decimal (n / 10) ++ [(n % 10).digitChar] :=
        Nat.toDigits_of_base_le (by decide) (by omega)
      rw [hsplit, hds] at h
      have hdiv := ih (n / 10) (by omega) (by rw [hds]; exact h)
      omega

theorem zero_decimal {n : Nat} (h : (decimal n).head? = some '0') : decimal n = ['0'] := by
  rw [eq_zero_of_head_decimal h]
  rfl

theorem proper_ofNat (n : Nat) : (ofNat n).Proper where
  whole := isDigits_decimal n
  zero := zero_decimal
  fraction := nofun
  exponent := nofun

theorem proper_ofInt (n : Int) : (ofInt n).Proper where
  whole := isDigits_decimal n.natAbs
  zero := zero_decimal
  fraction := nofun
  exponent := nofun

theorem le_ofDigitChars (ds : List Char) (n : Nat) : n ≤ Nat.ofDigitChars 10 ds n := by
  induction ds generalizing n with
  | nil => exact Nat.le_refl n
  | cons d ds ih =>
    rw [Nat.ofDigitChars_cons]
    have := ih (10 * n + (d.toNat - '0'.toNat))
    omega

/-- Digits are all taken up if their number is below the bound. -/
theorem absorb_digits {ds : List Char} {n : Nat} (h : Nat.ofDigitChars 10 ds n < Nat.pow 2 64) :
    absorb n ds = (Nat.ofDigitChars 10 ds n, ds.length) := by
  induction ds generalizing n with
  | nil => rfl
  | cons d ds ih =>
    rw [Nat.ofDigitChars_cons] at h
    have hle := le_ofDigitChars ds (10 * n + (d.toNat - '0'.toNat))
    rw [absorb]
    dsimp only
    rw [if_pos (Nat.lt_of_le_of_lt hle h), ih h, Nat.ofDigitChars_cons]
    rfl

theorem absorb_decimal {n : Nat} (h : n < Nat.pow 2 64) : absorb 0 (decimal n) = (n, (decimal n).length) := by
  have hn : Nat.ofDigitChars 10 (decimal n) 0 = n := Nat.ofDigitChars_ten_toDigits
  rw [absorb_digits (by rw [hn]; exact h), hn]

/-- **The literal of a natural number denotes it**, below `2 ^ 64`. -/
theorem numeric?_ofNat {n : Nat} (h : n < Nat.pow 2 64) : (ofNat n).numeric? = some (.integer n) := by
  rw [numeric?, ofNat]
  dsimp only
  rw [absorb_decimal h]
  dsimp only
  rw [if_pos ⟨rfl, rfl, Int.sub_self _⟩]
  rfl

/-- **The literal of an integer denotes it**, from `-2 ^ 63` up to `2 ^ 64 - 1`. -/
theorem numeric?_ofInt {n : Int} (hl : -(Nat.pow 2 63 : Int) ≤ n) (hu : n < (Nat.pow 2 64 : Int)) :
    (ofInt n).numeric? = some (.integer n) := by
  have h63 : Nat.pow 2 63 = 9223372036854775808 := rfl
  have h64 : Nat.pow 2 64 = 18446744073709551616 := rfl
  have habs : n.natAbs < Nat.pow 2 64 := by omega
  rw [numeric?, ofInt]
  dsimp only
  rw [absorb_decimal habs]
  dsimp only
  rw [if_pos ⟨rfl, rfl, Int.sub_self _⟩]
  by_cases hn : n < 0
  · rw [if_neg (by simp [hn]), if_pos ⟨by omega, by omega⟩]
    congr 2
    omega
  · rw [if_pos (by simp [hn])]
    congr 2
    omega

end Literal

/-! ## Doubles -/

namespace Decimal

/-- Of a decimal in the interval of a double, some digit is not zero. -/
theorem Interval.ne_zero_of_onGrid {i : Interval} {tie : Tie} {k : Int} {n : Nat} (h : i.onGrid tie k = some n) :
    n ≠ 0 := by
  unfold onGrid at h
  dsimp only at h
  split at h
  · cases h
  · rename_i hlower _
    rw [← Option.some.inj h]
    rw [Bool.and_eq_true, decide_eq_true_eq] at hlower
    exact hlower.1
  · rw [← Option.some.inj h]
    exact Nat.succ_ne_zero _
  · rename_i hlower _
    rw [Bool.and_eq_true, decide_eq_true_eq] at hlower
    split at h
    · rw [← Option.some.inj h]
      exact hlower.1
    split at h
    · rw [← Option.some.inj h]
      exact Nat.succ_ne_zero _
    split at h
    · rw [← Option.some.inj h]
      exact Nat.succ_ne_zero _
    · rw [← Option.some.inj h]
      split
      · exact hlower.1
      · exact Nat.succ_ne_zero _

theorem digits_stripZeros_ne_zero {d : Decimal} (h : d.digits ≠ 0) (fuel : Nat) : (stripZeros fuel d).digits ≠ 0 := by
  induction fuel generalizing d with
  | zero => exact h
  | succ fuel ih =>
    rw [stripZeros]
    split
    · rename_i hzero
      refine ih ?_
      show d.digits / 10 ≠ 0
      omega
    · exact h

/-- The shortest decimal of a double has no zeros in front. -/
theorem shortest_significant (tie : Tie) (x : Exact) :
    (shortest tie x).digits ≠ 0 ∨ (shortest tie x).exponent = 0 := by
  unfold shortest
  dsimp only
  generalize hfound : List.findSome? _ _ = found
  cases found with
  | none => exact .inr rfl
  | some d =>
    obtain ⟨used, -, hused⟩ := List.exists_of_findSome?_eq_some hfound
    obtain ⟨digits, hgrid, rfl⟩ := Option.map_eq_some_iff.1 hused
    exact .inl (digits_stripZeros_ne_zero (Interval.ne_zero_of_onGrid hgrid) 17)

/-- What stands before the point is a number of its own, and what stands after it are digits. -/
theorem split_digits {d : Decimal} (h : d.digits ≠ 0 ∨ d.exponent = 0) :
    IsDigits d.split.1 ∧ (d.split.1.head? = some '0' → d.split.1 = ['0']) ∧ ∀ c ∈ d.split.2, c.isDigit = true := by
  have hdigit : ∀ c ∈ decimal d.digits, c.isDigit = true := fun c => isDigit_of_mem_decimal
  have hzeros : ∀ n, ∀ c ∈ List.replicate n '0', c.isDigit = true := by
    intro n c hc
    rw [List.eq_of_mem_replicate hc]
    rfl
  unfold split
  dsimp only
  split
  · rename_i hexponent
    refine ⟨⟨by simp [decimal_ne_nil], List.forall_mem_append.2 ⟨hdigit, hzeros _⟩⟩, fun hhead => ?_, nofun⟩
    obtain ⟨c, cs, hcs⟩ := List.exists_cons_of_ne_nil (decimal_ne_nil d.digits)
    have hd : d.digits = 0 := Literal.eq_zero_of_head_decimal (by rw [hcs] at hhead ⊢; exact hhead)
    rw [h.resolve_left (not_not_intro hd), hd]
    rfl
  split
  · rename_i hexponent hplaces
    have hcount : (decimal d.digits).length - (-d.exponent).toNat ≠ 0 := by omega
    have hne : (decimal d.digits).take ((decimal d.digits).length - (-d.exponent).toNat) ≠ [] :=
      fun hnil => (List.take_eq_nil_iff.1 hnil).elim hcount (decimal_ne_nil _)
    refine ⟨⟨hne, fun c hc => hdigit c (List.mem_of_mem_take hc)⟩, fun hhead => ?_,
      fun c hc => hdigit c (List.mem_of_mem_drop hc)⟩
    -- Digits that begin with a zero are those of zero, and the exponent of zero is not negative.
    rw [List.head?_take, if_neg hcount] at hhead
    have hzero := h.resolve_left (not_not_intro (Literal.eq_zero_of_head_decimal hhead))
    omega
  · exact ⟨isDigits_zero, fun _ => rfl, List.forall_mem_append.2 ⟨hzeros _, hdigit⟩⟩

end Decimal

namespace Literal

theorem proper_positional {d : Decimal} (h : d.digits ≠ 0 ∨ d.exponent = 0) (negative : Bool) :
    (positional negative d).Proper := by
  obtain ⟨hwhole, hzero, hfraction⟩ := Decimal.split_digits h
  refine ⟨hwhole, hzero, fun ds hds => ?_, nofun⟩
  obtain rfl : (if d.split.2 = [] then ['0'] else d.split.2) = ds := Option.some.inj hds
  split
  · exact isDigits_zero
  · rename_i hne
    exact ⟨hne, hfraction⟩

theorem proper_scientific {d : Decimal} (h : d.digits ≠ 0) (negative : Bool) : (scientific negative d).Proper := by
  obtain ⟨c, cs, hcs⟩ := List.exists_cons_of_ne_nil (decimal_ne_nil d.digits)
  have hdigit : ∀ c' ∈ c :: cs, c'.isDigit = true := fun c' hc' => isDigit_of_mem_decimal (hcs ▸ hc')
  refine ⟨?_, fun hhead => ?_, fun ds hds => ?_, fun e he => ?_⟩
  · show IsDigits ((decimal d.digits).take 1)
    rw [hcs]
    exact ⟨List.cons_ne_nil _ _, fun c' hc' => hdigit c' (List.mem_of_mem_take hc')⟩
  · rw [show (scientific negative d).whole = (decimal d.digits).take 1 from rfl, hcs] at hhead
    exact absurd (eq_zero_of_head_decimal (by rw [hcs]; exact hhead)) h
  · rw [show (scientific negative d).fraction =
      if (decimal d.digits).drop 1 = [] then none else some ((decimal d.digits).drop 1) from rfl, hcs] at hds
    split at hds
    · cases hds
    · rename_i hne
      rw [← Option.some.inj hds]
      exact ⟨hne, fun c' hc' => hdigit c' (List.mem_of_mem_drop hc')⟩
  · rw [← Option.some.inj he]
    exact isDigits_decimal _

/-- **A finite double is written as a proper literal.** -/
theorem proper_ofBinary64 {x : Binary64} {n : Literal} (h : ofBinary64? x = some n) : n.Proper := by
  obtain ⟨v, -, rfl⟩ := Option.map_eq_some_iff.1 h
  split
  · refine ⟨isDigits_zero, fun _ => rfl, fun ds hds => ?_, nofun⟩
    rw [← Option.some.inj hds]
    exact isDigits_zero
  have hshortest := Decimal.shortest_significant .even v
  dsimp only
  split
  · exact proper_positional hshortest x.negative
  · rename_i hpower
    refine proper_scientific (fun hdigits => hpower ?_) x.negative
    have hexponent := hshortest.resolve_left (not_not_intro hdigits)
    rw [Decimal.leadingPower, hdigits, hexponent]
    decide

end Literal

end ThermalLabel

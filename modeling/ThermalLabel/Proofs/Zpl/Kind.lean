import ThermalLabel.Proofs.Zpl.Token
import ThermalLabel.Zpl.Segment

/-!
# Kinds of tokens

The kind of a token says which characters it has (`fits_of_mem_tokens`): a leader or a comma is one character, a line
break is one too or a carriage return with its line feed, blanks are blank, and a value begins with what is not blank
and has neither leaders nor commas nor line breaks. A value goes as far as it can (`head_after_value`). What is left of
the tokens of a text are the tokens of the rest (`tokens_rest`).
-/

namespace ThermalLabel.Zpl

/-! ## Characters of one kind -/

/-- A character that a value can begin with. -/
def beginsValue (c : Char) : Bool := isValueChar c && !isInnerBlank c

/-- The characters of a token of its kind. -/
def Token.Fits (t : Token) : Prop :=
  match t.kind with
  | .leader => ∃ c, isLeader c = true ∧ t.text = [c]
  | .comma => t.text = [',']
  | .lineBreak => t.text = ['\n'] ∨ t.text = ['\r'] ∨ t.text = ['\r', '\n']
  | .blank => t.text ≠ [] ∧ ∀ c ∈ t.text, isInnerBlank c = true
  | .value => t.text.head?.any beginsValue ∧ ∀ c ∈ t.text, isValueChar c = true

theorem isBoundary_of_isInnerBlank {c : Char} (h : isInnerBlank c = true) : isBoundary c = false := by
  refine Bool.eq_false_iff.2 fun hb => ?_
  rw [isInnerBlank_of_boundary hb] at h
  cases h

theorem isBoundary_of_isValueChar {c : Char} (h : isValueChar c = true) : isBoundary c = false := by
  refine Bool.eq_false_iff.2 fun hb => ?_
  rw [isValueChar_of_boundary hb] at h
  cases h

theorem isBlank_of_isInnerBlank {c : Char} (h : isInnerBlank c = true) : Text.isBlank c = true := by
  rw [isInnerBlank, Bool.and_eq_true] at h
  exact Text.isBlank_of_isAsciiBlank h.1

theorem isBlank_of_isLineBreak {c : Char} (h : isLineBreak c = true) : Text.isBlank c = true := by
  rw [isLineBreak, Bool.or_eq_true, beq_iff_eq, beq_iff_eq] at h
  rcases h with rfl | rfl
  · decide
  · decide

theorem isLeader_of_isLineBreak {c : Char} (h : isLineBreak c = true) : isLeader c = false := by
  rw [isLineBreak, Bool.or_eq_true, beq_iff_eq, beq_iff_eq] at h
  rcases h with rfl | rfl
  · decide
  · decide

/-- The first token of a text has the characters of its kind. -/
theorem fits_firstToken (c : Char) (cs : List Char) (offset : Nat) :
    Token.Fits ⟨(firstToken c cs).1, c :: (firstToken c cs).2.1, offset⟩ := by
  unfold firstToken
  split
  · rename_i hleader
    exact ⟨c, hleader, rfl⟩
  split
  · rename_i hcomma
    rw [hcomma]
    rfl
  split
  · rename_i hreturn
    rw [hreturn]
    split
    · exact .inr (.inr rfl)
    · exact .inr (.inl rfl)
  split
  · rename_i hfeed
    rw [hfeed]
    exact .inl rfl
  split
  · rename_i hblank
    refine ⟨List.cons_ne_nil _ _, ?_⟩
    intro x hx
    rcases List.mem_cons.1 hx with rfl | hx
    · exact hblank
    · exact List.all_eq_true.1 List.all_takeWhile x hx
  · rename_i hleader hcomma hreturn hfeed hblank
    have hvalue : isValueChar c = true := by simp [isValueChar, isLineBreak, hleader, hcomma, hreturn, hfeed]
    constructor
    · show beginsValue c = true
      rw [beginsValue, hvalue, Bool.true_and, Bool.not_eq_true']
      exact Bool.eq_false_iff.2 hblank
    · intro x hx
      rcases List.mem_cons.1 hx with rfl | hx
      · exact hvalue
      · exact List.all_eq_true.1 List.all_takeWhile x hx

/-- What follows a value that comes first does not go on it. -/
theorem head_firstToken {c : Char} {cs : List Char} (hk : (firstToken c cs).1 = .value) :
    (firstToken c cs).2.2.head?.all (!isValueChar ·) := by
  revert hk
  unfold firstToken
  split
  · nofun
  split
  · nofun
  split
  · split <;> nofun
  split
  · nofun
  split
  · nofun
  · intro _
    have hhead := List.head?_dropWhile_not isValueChar cs
    cases hd : (cs.dropWhile isValueChar).head? with
    | none => rfl
    | some d =>
      rw [hd] at hhead
      have hvalue : isValueChar d = false := hhead
      show (!isValueChar d) = true
      rw [hvalue]
      rfl

/-- **Every token has the characters of its kind.** -/
theorem fits_of_mem_tokens (offset : Nat) (cs : List Char) : ∀ t ∈ tokens offset cs, t.Fits := by
  fun_induction tokens offset cs with
  | case1 =>
    intro t ht
    cases ht
  | case2 offset c cs t ih =>
    intro u hu
    rcases List.mem_cons.1 hu with rfl | hu
    · exact fits_firstToken c cs offset
    · exact ih u hu

namespace Token.Fits

variable {t : Token} (h : t.Fits)

include h

theorem text_ne_nil : t.text ≠ [] := by
  intro hnil
  unfold Fits at h
  rw [hnil] at h
  split at h
  · obtain ⟨c, -, hc⟩ := h
    cases hc
  · cases h
  · rcases h with h | h | h <;> cases h
  · exact h.1 rfl
  · exact absurd h.1 (by simp)

theorem isLineBreak (hk : t.kind = .lineBreak) : ∀ c ∈ t.text, Zpl.isLineBreak c = true := by
  unfold Fits at h
  rw [hk] at h
  rcases h with h | h | h
  · simp [h, Zpl.isLineBreak]
  · simp [h, Zpl.isLineBreak]
  · simp [h, Zpl.isLineBreak]

/-- Leaders and line breaks are in no tokens but their own. -/
theorem inner (hk : t.kind ≠ .leader) (hk' : t.kind ≠ .lineBreak) : Inner t.text := by
  unfold Fits at h
  intro c hc
  split at h
  · rename_i hleader
    exact absurd hleader hk
  · rw [h, List.mem_singleton] at hc
    rw [hc]
    decide
  · rename_i hbreak
    exact absurd hbreak hk'
  · exact isBoundary_of_isInnerBlank (h.2 c hc)
  · exact isBoundary_of_isValueChar (h.2 c hc)

/-- A leader is in no other token. -/
theorem isLeader_eq_false (hk : t.kind ≠ .leader) : ∀ c ∈ t.text, isLeader c = false := by
  intro c hc
  by_cases hbreak : t.kind = .lineBreak
  · exact isLeader_of_isLineBreak (h.isLineBreak hbreak c hc)
  · exact (Bool.or_eq_false_iff.1 (h.inner hk hbreak c hc)).1

/-- Only a value begins with what a value can begin with. -/
theorem beginsValue_eq_false (hk : t.kind ≠ .value) : t.text.head?.any beginsValue = false := by
  unfold Fits at h
  split at h
  · obtain ⟨c, hc, htext⟩ := h
    rw [htext]
    show beginsValue c = false
    have hvalue : isValueChar c = false := isValueChar_of_boundary (by rw [isBoundary, hc, Bool.true_or])
    rw [beginsValue, hvalue, Bool.false_and]
  · rw [h]
    decide
  · rcases h with h | h | h
    · rw [h]
      decide
    · rw [h]
      decide
    · rw [h]
      decide
  · obtain ⟨c, cs, htext⟩ := List.exists_cons_of_ne_nil h.1
    rw [htext]
    show beginsValue c = false
    rw [beginsValue, h.2 c (by rw [htext]; exact List.mem_cons_self), Bool.not_true, Bool.and_false]
  · rename_i hvalue
    exact absurd hvalue hk

/-- Blanks and line breaks are blank. -/
theorem isBlank (hk : t.kind = .blank ∨ t.kind = .lineBreak) : ∀ c ∈ t.text, Text.isBlank c = true := by
  intro c hc
  rcases hk with hk | hk
  · unfold Fits at h
    rw [hk] at h
    exact isBlank_of_isInnerBlank (h.2 c hc)
  · exact isBlank_of_isLineBreak (h.isLineBreak hk c hc)

end Token.Fits

/-! ## The rest of the tokens -/

theorem joined_cons (t : Token) (ts : List Token) : joined (t :: ts) = t.text ++ joined ts := List.flatMap_cons

theorem joined_singleton (t : Token) : joined [t] = t.text := by
  rw [joined_cons]
  exact List.append_nil _

theorem joined_append (ts us : List Token) : joined (ts ++ us) = joined ts ++ joined us := List.flatMap_append

section Rest

variable {offset : Nat} {cs : List Char} {t : Token} {ts us : List Token}

/-- The tokens behind the first one are those of the text behind it. -/
theorem tokens_tail (h : tokens offset cs = t :: ts) :
    t.start = offset ∧ cs = t.text ++ joined ts ∧ ts = tokens t.stop (joined ts) := by
  cases cs with
  | nil =>
    rw [tokens] at h
    cases h
  | cons c cs =>
    rw [tokens] at h
    obtain ⟨rfl, hts⟩ := List.cons.inj h
    have hjoined : joined ts = (firstToken c cs).2.2 := by
      rw [← hts]
      exact tokens_text _ _
    refine ⟨rfl, ?_, ?_⟩
    · rw [hjoined, List.cons_append, firstToken_append]
    · rw [hjoined]
      exact hts.symm

/-- **What is left of the tokens** of a text are the tokens of the rest. -/
theorem tokens_rest (h : tokens offset cs = ts ++ us) :
    cs = joined ts ++ joined us ∧ us = tokens (offset + Text.byteLength (joined ts)) (joined us) := by
  induction ts generalizing offset cs with
  | nil =>
    have hcs : cs = joined us := by
      rw [← tokens_text offset cs, h]
      rfl
    refine ⟨hcs, ?_⟩
    rw [← hcs]
    exact h.symm
  | cons t ts ih =>
    obtain ⟨hstart, hcs, htail⟩ := tokens_tail h
    obtain ⟨hsplit, hrest⟩ := ih htail.symm
    constructor
    · rw [hcs, hsplit, joined_cons, List.append_assoc]
    · have hoffset : offset + Text.byteLength (joined (t :: ts)) = t.stop + Text.byteLength (joined ts) := by
        rw [joined_cons, Text.byteLength_append, Token.stop, hstart, Nat.add_assoc]
      rw [hoffset]
      exact hrest

/-- **A value goes as far as it can.** -/
theorem head_after_value (h : tokens offset cs = t :: ts) (hk : t.kind = .value) :
    (joined ts).head?.all (!isValueChar ·) := by
  cases cs with
  | nil =>
    rw [tokens] at h
    cases h
  | cons c cs =>
    rw [tokens] at h
    obtain ⟨rfl, hts⟩ := List.cons.inj h
    have hjoined : joined ts = (firstToken c cs).2.2 := by
      rw [← hts]
      exact tokens_text _ _
    rw [hjoined]
    exact head_firstToken hk

end Rest

end ThermalLabel.Zpl

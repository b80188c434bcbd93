import ThermalLabel.Zpl.Token

/-!
# Tokens at boundaries

Leaders and line breaks are boundaries: no token goes on over one, except that a line feed joins a carriage return
before it. So the tokens of a text without boundaries are the same wherever the text stands in front of a boundary
(`tokens_append`), and all of them go on a body.
-/

namespace ThermalLabel.Zpl

/-- A leader or the end of a line. -/
def isBoundary (c : Char) : Bool := isLeader c || isLineBreak c

/-- A text that ends in front of a boundary or is all of the program. -/
def AtBoundary (rest : List Char) : Prop := rest.head?.all isBoundary

/-- A text without leaders and line breaks. -/
def Inner (text : List Char) : Prop := ∀ c ∈ text, isBoundary c = false

instance : DecidablePred Inner := fun text => List.decidableBAll (fun c => isBoundary c = false) text

theorem Inner.append {a b : List Char} (ha : Inner a) (hb : Inner b) : Inner (a ++ b) := fun c hc =>
  (List.mem_append.1 hc).elim (ha c) (hb c)

theorem isValueChar_of_boundary {c : Char} (h : isBoundary c = true) : isValueChar c = false := by
  rw [isBoundary, Bool.or_eq_true] at h
  rcases h with h | h <;> simp [isValueChar, h]

theorem isInnerBlank_of_boundary {c : Char} (h : isBoundary c = true) : isInnerBlank c = false := by
  rw [isBoundary, Bool.or_eq_true] at h
  rcases h with h | h
  · rw [isLeader, Bool.or_eq_true, beq_iff_eq, beq_iff_eq] at h
    rcases h with rfl | rfl <;> decide
  · simp [isInnerBlank, h]

/-! ## Runs -/

section Runs

variable {α : Type} {p : α → Bool} {rest : List α} (h : rest.head?.all (!p ·))

include h

/-- A run ends where what follows it begins otherwise. -/
theorem takeWhile_append_of_head : ∀ cs : List α, (cs ++ rest).takeWhile p = cs.takeWhile p
  | [] => by
    cases rest with
    | nil => rfl
    | cons r rest =>
      have hr : p r = false := by simpa using h
      rw [List.nil_append, List.takeWhile_cons_of_neg (by simp [hr])]
      rfl
  | c :: cs => by
    rw [List.cons_append, List.takeWhile_cons, List.takeWhile_cons, takeWhile_append_of_head cs]

theorem dropWhile_append_of_head : ∀ cs : List α, (cs ++ rest).dropWhile p = cs.dropWhile p ++ rest
  | [] => by
    cases rest with
    | nil => rfl
    | cons r rest =>
      have hr : p r = false := by simpa using h
      rw [List.nil_append, List.dropWhile_cons_of_neg (by simp [hr])]
      rfl
  | c :: cs => by
    rw [List.cons_append, List.dropWhile_cons, List.dropWhile_cons, dropWhile_append_of_head cs]
    split <;> rfl

end Runs

/-! ## First tokens -/

section Inner

variable {c : Char} (hc : isBoundary c = false)

include hc

/-- The first token of a text that does not begin with a boundary. -/
theorem firstToken_of_inner (cs : List Char) : firstToken c cs =
    if c = ',' then (.comma, [], cs)
    else if isInnerBlank c then (.blank, cs.takeWhile isInnerBlank, cs.dropWhile isInnerBlank)
    else (.value, cs.takeWhile isValueChar, cs.dropWhile isValueChar) := by
  obtain ⟨hl, hb⟩ := Bool.or_eq_false_iff.1 hc
  obtain ⟨hn, hr⟩ := Bool.or_eq_false_iff.1 hb
  rw [beq_eq_false_iff_ne] at hn hr
  rw [firstToken.eq_def, if_neg (by simp [hl]), if_neg hr, if_neg hn]

/-- It is no leader and no line break. -/
theorem firstToken_kind (cs : List Char) :
    (firstToken c cs).1 ≠ .leader ∧ (firstToken c cs).1 ≠ .lineBreak := by
  rw [firstToken_of_inner hc]
  split
  · exact ⟨TokenKind.noConfusion, TokenKind.noConfusion⟩
  · split <;> exact ⟨TokenKind.noConfusion, TokenKind.noConfusion⟩

/-- It does not reach over a boundary. -/
theorem firstToken_append_of_boundary {rest : List Char} (h : AtBoundary rest) (cs : List Char) :
    firstToken c (cs ++ rest) = ((firstToken c cs).1, (firstToken c cs).2.1, (firstToken c cs).2.2 ++ rest) := by
  have hvalue : rest.head?.all (!isValueChar ·) := by
    cases rest with
    | nil => rfl
    | cons r rest => simp [isValueChar_of_boundary h]
  have hblank : rest.head?.all (!isInnerBlank ·) := by
    cases rest with
    | nil => rfl
    | cons r rest => simp [isInnerBlank_of_boundary h]
  rw [firstToken_of_inner hc, firstToken_of_inner hc, takeWhile_append_of_head hblank, takeWhile_append_of_head hvalue,
    dropWhile_append_of_head hblank, dropWhile_append_of_head hvalue]
  by_cases hcomma : c = ','
  · rw [if_pos hcomma, if_pos hcomma]
  · rw [if_neg hcomma, if_neg hcomma]
    by_cases hb : isInnerBlank c = true
    · rw [if_pos hb, if_pos hb]
    · rw [if_neg hb, if_neg hb]

end Inner

/-! ## All tokens -/

theorem Inner.rest {c : Char} {cs : List Char} (h : Inner (c :: cs)) : Inner (firstToken c cs).2.2 := by
  intro x hx
  apply h x
  rw [← firstToken_append c cs]
  exact List.mem_cons_of_mem _ (List.mem_append_right _ hx)

/-- **The tokens of a text without boundaries in front of a boundary** are its own, and then those of the rest. -/
theorem tokens_append {rest : List Char} (h : AtBoundary rest) (offset : Nat) (cs : List Char) (hcs : Inner cs) :
    tokens offset (cs ++ rest) = tokens offset cs ++ tokens (offset + Text.byteLength cs) rest := by
  fun_induction tokens offset cs with
  | case1 => rfl
  | case2 offset c cs t ih =>
    have hc : isBoundary c = false := hcs c List.mem_cons_self
    have hrest := hcs.rest
    have hlength : t.stop + Text.byteLength (firstToken c cs).2.2 = offset + Text.byteLength (c :: cs) := by
      have hlen := congrArg Text.byteLength (firstToken_append c cs)
      rw [Text.byteLength_append] at hlen
      show offset + Text.byteLength (c :: (firstToken c cs).2.1) + _ = _
      rw [Text.byteLength_cons, Text.byteLength_cons, ← hlen]
      omega
    rw [List.cons_append, tokens, firstToken_append_of_boundary hc h]
    simp only
    rw [ih hrest, hlength]
    rfl

/-- No token of a text without boundaries is a leader or a line break. -/
theorem kind_of_mem_tokens (offset : Nat) (cs : List Char) (hcs : Inner cs) :
    ∀ t ∈ tokens offset cs, t.kind ≠ .leader ∧ t.kind ≠ .lineBreak := by
  fun_induction tokens offset cs with
  | case1 => intro t ht; cases ht
  | case2 offset c cs t ih =>
    have hrest := hcs.rest
    intro u hu
    rcases List.mem_cons.1 hu with rfl | hu
    · exact firstToken_kind (hcs c List.mem_cons_self) cs
    · exact ih hrest u hu

end ThermalLabel.Zpl

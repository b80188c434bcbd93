import ThermalLabel.Proofs.Zpl.Append
import ThermalLabel.Proofs.Zpl.Cut
import ThermalLabel.Proofs.Zpl.Kind

/-!
# What the lexer guarantees

Scanners and segments rest on a few facts about tokens, which are put together here (`Lexes`): the tokens tile the
program between characters, each has the characters of its kind, a leader is always a token of its own, and a carriage
return is never cut off from its line feed (`mem_tokens_crlf`). They hold of **every** text (`lexes_tokens`).
-/

namespace ThermalLabel.Zpl

/-! ## Tokens at a place -/

/-- What begins a token begins one at its own offset. -/
theorem mem_tokens_of_start {t : Token} {rest : List Char} (h : StartsToken rest) (before : List Char)
    (ht : t ∈ tokens (Text.byteLength before) rest) : t ∈ tokens 0 (before ++ rest) := by
  rw [tokens_append_of_start h, Nat.zero_add]
  exact List.mem_append_right _ ht

/-- **A leader is a token of its own**, wherever it stands. -/
theorem mem_tokens_leader {c : Char} (hc : isLeader c = true) (before after : List Char) :
    ⟨.leader, [c], Text.byteLength before⟩ ∈ tokens 0 (before ++ c :: after) := by
  have hstart : AtLeader (c :: after) := hc
  refine mem_tokens_of_start hstart.startsToken before ?_
  rw [tokens, firstToken.eq_def, if_pos hc]
  exact List.mem_cons_self

/-- **A carriage return and its line feed are one token**, wherever they stand. -/
theorem mem_tokens_crlf (before after : List Char) :
    ⟨.lineBreak, ['\r', '\n'], Text.byteLength before⟩ ∈ tokens 0 (before ++ '\r' :: '\n' :: after) := by
  have hstart : StartsToken ('\r' :: '\n' :: after) := ⟨rfl, by simp⟩
  refine mem_tokens_of_start hstart before ?_
  rw [tokens]
  exact List.mem_cons_self

/-! ## Kinds by characters -/

namespace Token.Fits

variable {t : Token} (h : t.Fits)

include h

/-- A leader token is one leader. -/
theorem leader_iff : t.kind = .leader ↔ t.text = ['^'] ∨ t.text = ['~'] := by
  constructor
  · intro hk
    unfold Fits at h
    rw [hk] at h
    obtain ⟨c, hc, htext⟩ := h
    rw [isLeader, Bool.or_eq_true, beq_iff_eq, beq_iff_eq] at hc
    rcases hc with rfl | rfl
    · exact .inl htext
    · exact .inr htext
  · intro htext
    refine Decidable.byContradiction fun hk => ?_
    have hnone := h.isLeader_eq_false hk
    rcases htext with htext | htext
    · exact absurd (hnone '^' (by rw [htext]; exact List.mem_cons_self)) (by decide)
    · exact absurd (hnone '~' (by rw [htext]; exact List.mem_cons_self)) (by decide)

/-- Only a comma begins with a comma. -/
theorem comma_iff : t.kind = .comma ↔ t.text.head? = some ',' := by
  unfold Fits at h
  constructor
  · intro hk
    rw [hk] at h
    rw [h]
    rfl
  · intro hhead
    obtain ⟨cs, htext⟩ := List.head?_eq_some_iff.1 hhead
    have hmem : ',' ∈ t.text := by
      rw [htext]
      exact List.mem_cons_self
    cases hk : t.kind with
    | comma => rfl
    | leader =>
      rw [hk] at h
      obtain ⟨c, hc, hc'⟩ := h
      rw [hc', List.mem_singleton] at hmem
      rw [← hmem] at hc
      exact absurd hc (by decide)
    | lineBreak =>
      rw [hk, htext] at h
      rcases h with h | h | h
      · exact absurd (List.cons.inj h).1 (by decide)
      · exact absurd (List.cons.inj h).1 (by decide)
      · exact absurd (List.cons.inj h).1 (by decide)
    | blank =>
      rw [hk] at h
      exact absurd (h.2 ',' hmem) (by decide)
    | value =>
      rw [hk] at h
      exact absurd (h.2 ',' hmem) (by decide)

/-- A value has none of the characters that bound it, and does not begin with a blank. -/
theorem value (hk : t.kind = .value) :
    (∀ c ∈ t.text, isLeader c = false ∧ c ≠ ',' ∧ Zpl.isLineBreak c = false) ∧
      ∀ c ∈ t.text.head?, Text.isAsciiBlank c = false := by
  unfold Fits at h
  rw [hk] at h
  obtain ⟨hbegins, hvalue⟩ := h
  have hchars : ∀ c ∈ t.text, isLeader c = false ∧ c ≠ ',' ∧ Zpl.isLineBreak c = false := by
    intro c hc
    have hone := hvalue c hc
    rw [isValueChar, Bool.not_eq_true', Bool.or_eq_false_iff, Bool.or_eq_false_iff, beq_eq_false_iff_ne] at hone
    exact ⟨hone.1.1, hone.1.2, hone.2⟩
  refine ⟨hchars, ?_⟩
  intro c hc
  rw [Option.mem_def.1 hc] at hbegins
  have hinner : isInnerBlank c = false := by
    have hboth : beginsValue c = true := hbegins
    rw [beginsValue, Bool.and_eq_true, Bool.not_eq_true'] at hboth
    exact hboth.2
  -- a line break is an ASCII blank too, but a value has none
  have hbreak := (hchars c (List.mem_of_mem_head? hc)).2.2
  rwa [isInnerBlank, hbreak, Bool.not_false, Bool.and_true] at hinner

end Token.Fits

/-! ## All together -/

/-- The tokens are what the lexer should make of a program. -/
structure Lexes (program : List Char) (ts : List Token) : Prop where
  /-- They are found in the bytes of the program, and no cut between bytes fails. -/
  bytes : cutTokens program 0 (Text.encode program) = some ts
  nonempty : ∀ t ∈ ts, t.text ≠ []
  /-- Put together they are the program. -/
  text : ts.flatMap Token.text = program
  /-- The first starts at 0, each of the others where the one before it stops, and the last stops at the end. -/
  tile : Tile 0 ts (Text.byteLength program)
  /-- Each is cut out of the program between two characters. -/
  slices : ∀ t ∈ ts, Text.slice? program t.span = some t.text ∧
    Text.CharBoundary program t.start ∧ Text.CharBoundary program t.stop
  leaders : ∀ t ∈ ts, t.kind = .leader ↔ t.text = ['^'] ∨ t.text = ['~']
  /-- No leader of the program is in any other token. -/
  everyLeader : ∀ before c after, program = before ++ c :: after → isLeader c = true →
    ⟨.leader, [c], Text.byteLength before⟩ ∈ ts
  commas : ∀ t ∈ ts, t.kind = .comma ↔ t.text.head? = some ','
  values : ∀ t ∈ ts, t.kind = .value →
    (∀ c ∈ t.text, c ≠ '^' ∧ c ≠ '~' ∧ c ≠ ',' ∧ c ≠ '\r' ∧ c ≠ '\n') ∧
      ∀ c ∈ t.text.head?, Text.isAsciiBlank c = false
  /-- A carriage return is not cut off from its line feed. -/
  lineEndings : ∀ before after, program = before ++ '\r' :: '\n' :: after →
    ⟨.lineBreak, ['\r', '\n'], Text.byteLength before⟩ ∈ ts

/-- A token is the slice of its span. -/
theorem slice?_of_mem_tokens {program : List Char} {t : Token} (ht : t ∈ tokens 0 program) :
    Text.slice? program t.span = some t.text := by
  obtain ⟨us, vs, hts⟩ := List.append_of_mem ht
  have hremains := remains_tokens program
  rw [hts] at hremains
  have hrest : Remains program (joined us) ([t] ++ vs) := hremains.append
  have hslice := hrest.slice?_eq
  have hstart : t.start = Text.byteLength (joined us) := hrest.tile.1
  have hstop : startOf program vs = t.stop := by
    rw [hrest.append.startOf_eq, Text.byteLength_append, joined_singleton, ← hstart]
    rfl
  rw [joined_singleton, hstop, ← hstart] at hslice
  exact hslice

/-- **The lexer tiles every text** with tokens of the right kinds. -/
theorem lexes_tokens (program : String) : Lexes program.toList (tokens 0 program.toList) := by
  have hfits := fits_of_mem_tokens 0 program.toList
  constructor
  case bytes => exact cutTokens_eq 0 program.toList [] rfl
  case nonempty => exact fun t ht => (hfits t ht).text_ne_nil
  case text => exact tokens_text 0 program.toList
  case tile => exact (remains_tokens program.toList).tile
  case slices =>
    intro t ht
    have hslice := slice?_of_mem_tokens ht
    obtain ⟨-, hstart, hstop⟩ := Text.isSome_slice?_iff.1 (Option.isSome_of_eq_some hslice)
    exact ⟨hslice, hstart, hstop⟩
  case leaders => exact fun t ht => (hfits t ht).leader_iff
  case everyLeader =>
    intro before c after hprogram hc
    rw [hprogram]
    exact mem_tokens_leader hc before after
  case commas => exact fun t ht => (hfits t ht).comma_iff
  case values =>
    intro t ht hk
    obtain ⟨hchars, hhead⟩ := (hfits t ht).value hk
    refine ⟨?_, hhead⟩
    intro c hc
    obtain ⟨hleader, hcomma, hbreak⟩ := hchars c hc
    rw [isLeader, Bool.or_eq_false_iff, beq_eq_false_iff_ne, beq_eq_false_iff_ne] at hleader
    rw [isLineBreak, Bool.or_eq_false_iff, beq_eq_false_iff_ne, beq_eq_false_iff_ne] at hbreak
    exact ⟨hleader.1, hleader.2, hcomma, hbreak.2, hbreak.1⟩
  case lineEndings =>
    intro before after hprogram
    rw [hprogram]
    exact mem_tokens_crlf before after

end ThermalLabel.Zpl

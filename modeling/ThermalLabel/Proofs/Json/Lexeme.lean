import ThermalLabel.Json.Lexeme
import ThermalLabel.Json.Printer
import ThermalLabel.Proofs.Number.Word

/-!
# Lexemes of written documents

Blanks, marks and words are read by their first character. A string is read as the string it was written for, whatever
follows it, because each escape names the character that it stands for (`lexemes_stringText`).
-/

namespace ThermalLabel.Json

/-! ## Strings -/

theorem hexUnit?_hexDigit {n : Nat} (h : n < 0x20) :
    hexUnit? '0' '0' (hexDigit (n / 16)) (hexDigit (n % 16)) = some n := by
  have hall : ∀ m < 0x20, hexUnit? '0' '0' (hexDigit (m / 16)) (hexDigit (m % 16)) = some m := by decide
  exact hall n h

/-- A character without an escape is a piece. -/
theorem stringPieces_plain {c : Char} (hquote : c ≠ '"') (hslash : c ≠ '\\') (hcontrol : ¬c.toNat < 0x20)
    (rest : List Char) : stringPieces (c :: rest) = (stringPieces rest).map fun (ps, r) => (.char c :: ps, r) := by
  rw [stringPieces]
  · rw [if_neg (not_or.2 ⟨hcontrol, hslash⟩)]
  · exact hquote
  · exact fun _ _ _ _ _ h _ => hslash h
  · exact fun _ _ h _ => hslash h

/-- **A written character is one piece**, whatever follows it, and the piece is the character. -/
theorem exists_piece (c : Char) : ∃ p : Piece,
    (∀ rest, stringPieces (escapeChar c ++ rest) = (stringPieces rest).map fun (ps, r) => (p :: ps, r)) ∧
      ∀ ps, piecesText? (p :: ps) = (piecesText? ps).map (c :: ·) := by
  unfold escapeChar
  iterate 7
    split
    · subst c
      exact ⟨.char _, fun rest => rfl, fun ps => rfl⟩
  split
  · rename_i hcontrol
    refine ⟨.codeUnit c.toNat, fun rest => ?_, fun ps => ?_⟩
    · simp only [List.cons_append, List.nil_append, stringPieces, hexUnit?_hexDigit hcontrol]
    · rw [piecesText?.eq_def]
      simp only [Char.ofNat_toNat]
      exact if_pos (.inl (by omega))
  · rename_i hquote hslash _ _ _ _ _ hcontrol
    exact ⟨.char c, stringPieces_plain hquote hslash hcontrol, fun ps => rfl⟩

/-- A written string is read up to its closing quote. -/
theorem exists_pieces (cs rest : List Char) :
    ∃ ps, stringPieces (cs.flatMap escapeChar ++ '"' :: rest) = some (ps, rest) ∧ piecesText? ps = some cs := by
  induction cs with
  | nil => exact ⟨[], rfl, rfl⟩
  | cons c cs ih =>
    obtain ⟨ps, hps, htext⟩ := ih
    obtain ⟨p, hp, hc⟩ := exists_piece c
    refine ⟨p :: ps, ?_, ?_⟩
    · rw [List.flatMap_cons, List.append_assoc, hp, hps]
      rfl
    · rw [hc, htext]
      rfl

/-! ## Any lexemes -/

theorem lexemes_space {c : Char} (h : isSpace c = true) (rest : List Char) : lexemes (c :: rest) = lexemes rest := by
  rw [lexemes, if_pos h]

theorem lexemes_spaces : ∀ {cs : List Char}, cs.all isSpace = true → ∀ rest, lexemes (cs ++ rest) = lexemes rest
  | [], _, _ => rfl
  | c :: cs, h, rest => by
    rw [List.all_cons, Bool.and_eq_true] at h
    rw [List.cons_append, lexemes_space h.1, lexemes_spaces h.2]

theorem lexemes_mark {c : Char} {x : Lexeme} (hspace : isSpace c = false) (h : mark? c = some x) (rest : List Char) :
    lexemes (c :: rest) = x :: lexemes rest := by
  rw [lexemes, if_neg (by rw [hspace]; decide), h]

/-- A text that begins with a word or a number. -/
theorem lexemes_wordOrNumber {c : Char} {cs rest : List Char} {x : Lexeme} (hspace : isSpace c = false)
    (hmark : mark? c = none) (hquote : c ≠ '"') (h : wordOrNumber? (c :: cs) = some (x, rest)) :
    lexemes (c :: cs) = x :: lexemes rest := by
  rw [lexemes, if_neg (by rw [hspace]; decide), hmark]
  dsimp only
  rw [if_neg hquote]
  split
  · rename_i heq
    rw [h] at heq
    cases heq
    rfl
  · rename_i heq
    rw [h] at heq
    cases heq

/-- **A written string is one lexeme.** -/
theorem lexemes_stringText (s : String) (rest : List Char) :
    lexemes (stringText s ++ rest) = .string (some s) :: lexemes rest := by
  obtain ⟨ps, hps, htext⟩ := exists_pieces s.toList rest
  have hcons : stringText s ++ rest = '"' :: (s.toList.flatMap escapeChar ++ '"' :: rest) := by
    simp [stringText]
  have hspace : isSpace '"' = false := rfl
  have hmark : mark? '"' = none := rfl
  rw [hcons, lexemes, if_neg (by rw [hspace]; decide), hmark]
  dsimp only
  rw [if_pos rfl]
  split
  · rename_i heq
    rw [hps] at heq
    cases heq
    rw [htext, Option.map_some, String.ofList_toList]
  · rename_i heq
    rw [hps] at heq
    cases heq

/-! ## Words -/

theorem lexemes_null (rest : List Char) : lexemes ("null".toList ++ rest) = .null :: lexemes rest :=
  lexemes_wordOrNumber rfl rfl (by decide) rfl

theorem lexemes_bool (b : Bool) (rest : List Char) :
    lexemes ((if b then "true" else "false").toList ++ rest) = .bool b :: lexemes rest := by
  cases b with
  | true => exact lexemes_wordOrNumber rfl rfl (by decide) rfl
  | false => exact lexemes_wordOrNumber rfl rfl (by decide) rfl

end ThermalLabel.Json

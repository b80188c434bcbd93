import ThermalLabel.Proofs.Zpl.RoundTrip

/-!
# Drawing again what ZPL keeps

What ZPL keeps of an element is drawn by the commands of the element itself, and without notes (`fieldCommands_kept`).
-/

namespace ThermalLabel.Zpl

theorem isBlank_of_isHeadChar {c : Char} (h : isHeadChar c = true) : Text.isBlank c = false := by
  have hc := toNat_of_isHeadChar h
  simp only [Text.isBlank, Bool.or_eq_false_iff, Bool.and_eq_false_iff, decide_eq_false_iff_not, beq_eq_false_iff_ne]
  omega

theorem isFontChar_of_isHeadChar {c : Char} (h : isHeadChar c = true) : isFontChar c = true := by
  unfold isFontChar Char.isAlphanum Char.isAlpha
  rw [isHeadChar, Bool.or_eq_true] at h
  rcases h with h | h <;> simp [h]

/-- A font name that was read is written again. -/
theorem fontName_singleton {c : Char} (h : isHeadChar c = true) : fontName (String.ofList [c]) = c := by
  have htidy : Text.Tidy [c] := Text.tidy_of_all (by simp) (by simpa using isBlank_of_isHeadChar h)
  rw [fontName, String.toList_ofList, Text.trim_of_tidy htidy]
  simp only [isFontChar_of_isHeadChar h, if_true, toUpper_of_isHeadChar h]

theorem fontName_kept (style : TextStyle) (width : UInt32) :
    fontName (keptStyle style width).font = fontName style.font :=
  fontName_singleton (isHeadChar_fontName style.font)

/-- Characters that count as bold because there is no room for wider ones are as wide as they were. -/
theorem characterWidth_kept (style : TextStyle) (width : UInt32) :
    characterWidth (keptStyle style width) = characterWidth style := by
  cases hb : style.bold with
  | true => simp [characterWidth, keptStyle, hb]
  | false =>
    by_cases hmax : style.size.dots = wordMax
    · have hfull : addWord wordMax (fifthUp wordMax) = wordMax := rfl
      simp [characterWidth, keptStyle, hb, hmax, hfull]
    · simp [characterWidth, keptStyle, hb, hmax]

theorem fontCommand_kept (style : TextStyle) (width : UInt32) (r : Rotation) :
    fontCommand (keptStyle style width) r = fontCommand style r := by
  simp only [fontCommand, fontName_kept, characterWidth_kept]
  rfl

/-- Text is aligned again iff it was. -/
theorem block_kept (style : TextStyle) (width : UInt32) :
    let kept : UInt32 := if style.alignment = .left then 0 else width
    blockCommands (keptStyle style width) kept = blockCommands style width ∧
      blockNotes (keptStyle style width) kept = [] := by
  intro kept
  by_cases hleft : style.alignment = .left
  · simp [kept, blockCommands, blockNotes, keptStyle, hleft, justification?, noteIf]
  · by_cases hw : width = 0
    · have hnone : blockCommands style 0 = [] := by
        rw [blockCommands]
        split <;> rfl
      rw [hw, hnone]
      simp [kept, blockCommands, blockNotes, keptStyle, hw, justification?, noteIf]
    · have hstyle : (keptStyle style width).alignment = style.alignment := if_neg hw
      have hkept : kept = width := if_neg hleft
      rw [hkept, blockCommands, blockCommands, blockNotes, hstyle]
      simp [hw, noteIf]

theorem graphicCommand_kept (e : Element) (stroke : Stroke) :
    graphicCommand (keptGraphic e stroke).size stroke = graphicCommand e.size stroke := by
  rw [keptGraphic_size]
  cases h : Shape.of e.size stroke.thickness.dots with
  | box => rw [solidExtent_of_box h]
  | line => simp only [graphicCommand, shape_solidExtent, h, solidExtent_solidExtent]

/-- **What ZPL keeps of an element is drawn by the same commands**, and without notes. -/
theorem fieldCommands_kept {e k : Element} (h : kept? e = some k) :
    ∃ cs notes, fieldCommands k = .ok (cs, []) ∧ fieldCommands e = .ok (cs, notes) ∧ k.position = e.position := by
  cases hk : e.kind with
  | text style | price style =>
    simp only [kept?, hk, Option.some.injEq] at h
    subst h
    obtain ⟨hcommands, hnotes⟩ := block_kept style e.size.width
    simp only [fieldCommands, hk, fontCommand_kept, hcommands, hnotes]
    exact ⟨_, _, rfl, rfl, trivial⟩
  | barcode style =>
    simp only [kept?, hk, Option.some.injEq] at h
    subst h
    simp only [fieldCommands, hk]
    exact ⟨_, _, rfl, rfl, trivial⟩
  | qrCode style =>
    simp only [kept?, hk, Option.some.injEq] at h
    subst h
    simp only [fieldCommands, hk]
    exact ⟨_, _, rfl, rfl, trivial⟩
  | image =>
    simp only [kept?, hk] at h
    cases h
  | box stroke | line stroke =>
    simp only [kept?, hk, Option.some.injEq] at h
    subst h
    have hkind : (keptGraphic e stroke).kind = (Shape.of e.size stroke.thickness.dots).kind stroke := rfl
    have hnotes : shapeNotes (Shape.of e.size stroke.thickness.dots) (keptGraphic e stroke).size stroke = [] := by
      rw [← shape_solidExtent, ← keptGraphic_size, shapeNotes_self]
    simp only [fieldCommands, hk, hkind]
    cases hs : Shape.of e.size stroke.thickness.dots with
    | box =>
      rw [hs] at hnotes
      simp only [Shape.kind, hnotes, graphicCommand_kept]
      exact ⟨_, _, rfl, rfl, rfl⟩
    | line =>
      rw [hs] at hnotes
      simp only [Shape.kind, hnotes, graphicCommand_kept]
      exact ⟨_, _, rfl, rfl, rfl⟩

theorem draw_kept {e k : Element} (h : kept? e = some k) :
    ∃ line, draw k = .ok ⟨line, []⟩ ∧ Language.zpl.line? e = some line := by
  obtain ⟨cs, notes, hk, he, hp⟩ := fieldCommands_kept h
  refine ⟨commandsText (originCommand e.position :: cs ++ [separatorCommand]), ?_, ?_⟩
  · rw [draw, hk, hp]
    rfl
  · rw [Language.line?, Language.draw, draw, he]
    rfl

end ThermalLabel.Zpl

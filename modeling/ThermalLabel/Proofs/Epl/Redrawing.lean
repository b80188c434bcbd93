import ThermalLabel.Proofs.Epl.RoundTrip

/-!
# Drawing again what EPL2 keeps

What EPL2 keeps of an element is drawn without notes, and by the statement of the element itself unless it is a box
whose far corner lies beyond the largest word (`statement_kept`).
-/

namespace ThermalLabel.Epl

/-- The font in which text was drawn is the nearest to its own height. -/
theorem eplFont_height (size : PositiveDots) : eplFont (eplFont size).height = eplFont size :=
  (isNearest_eplFont _).eq_of_height (heightsAscend_bitmapFonts .epl) (isNearest_eplFont size).mem

theorem statement_of_graphic {e : Element} {stroke : Stroke}
    (h : e.kind = (Shape.of e.size stroke.thickness.dots).kind stroke) :
    statement e = .ok (graphicStatement e stroke, []) := by
  have hnotes := shapeNotes_self e.size stroke
  cases hs : Shape.of e.size stroke.thickness.dots with
  | box =>
    rw [hs] at h hnotes
    simp only [statement, h, Shape.kind, hnotes]
  | line =>
    rw [hs] at h hnotes
    simp only [statement, h, Shape.kind, hnotes]

theorem graphicStatement_kept {e : Element} {stroke : Stroke}
    (h : Shape.of e.size stroke.thickness.dots = .box → framedExtent e.position e.size = e.size) :
    graphicStatement (keptGraphic e stroke) (keptStroke e.size stroke) = graphicStatement e stroke := by
  cases hs : Shape.of e.size stroke.thickness.dots with
  | box => simp only [graphicStatement, keptGraphic, keptStroke, hs, h hs]
  | line =>
    have hsolid : Shape.of (solidExtent e.size stroke) (solidStroke e.size stroke).thickness.dots = .line :=
      shape_of_solid _
    simp only [graphicStatement, keptGraphic, keptStroke, hs, hsolid, solidExtent_solidStroke]

theorem statement_keptText (e : Element) (style : TextStyle) :
    statement (keptText e (eplFont style.size).height .left) = .ok (textStatement e style, []) := by
  have hnotes : fontNotes { size := (eplFont style.size).height, alignment := .left } = [] := by
    simp [fontNotes, eplFont_height, noteIf]
  have hstatement : textStatement (keptText e (eplFont style.size).height .left)
      { size := (eplFont style.size).height, alignment := .left } = textStatement e style := by
    unfold textStatement
    rw [eplFont_height, keptText, toList_singleLine, oneLine_oneLine]
    rfl
  simp only [statement, keptText, toList_singleLine, oneLineNotes_oneLine, hnotes, ← hstatement, List.append_nil]

theorem statement_keptBarcode {e k : Element} {style : BarcodeStyle} (hk : k.kind = .barcode style)
    (hp : k.position = e.position) (hr : k.rotation = e.rotation) (hc : k.content = singleLine e.content) :
    statement k = .ok (barcodeStatement e style, []) := by
  have hstatement : barcodeStatement k style = barcodeStatement e style := by
    unfold barcodeStatement placed
    rw [hp, hr, hc, toList_singleLine, oneLine_oneLine]
  simp only [statement, hk, hstatement, hc, toList_singleLine, oneLineNotes_oneLine]

/-- **What EPL2 keeps of an element is drawn without notes**, and by the same statement unless it is a box cut off. -/
theorem statement_kept {e k : Element} (h : kept? e = some k) :
    ∃ s, statement k = .ok (s, []) ∧ (e.BoxFits → ∃ notes, statement e = .ok (s, notes)) := by
  cases hk : e.kind with
  | text style | price style =>
    simp only [kept?, hk, Option.some.injEq] at h
    subst h
    refine ⟨textStatement e style, statement_keptText e style, fun _ => ?_⟩
    simp only [statement, hk]
    exact ⟨_, rfl⟩
  | barcode style =>
    simp only [kept?, hk, Option.some.injEq] at h
    subst h
    refine ⟨barcodeStatement e style, statement_keptBarcode rfl rfl rfl rfl, fun _ => ?_⟩
    simp only [statement, hk]
    exact ⟨_, rfl⟩
  | qrCode style | image =>
    simp only [kept?, hk] at h
    cases h
  | box stroke | line stroke =>
    simp only [kept?, hk, Option.some.injEq] at h
    subst h
    refine ⟨_, statement_of_graphic (keptGraphic_kind e stroke), fun hfits => ?_⟩
    rw [graphicStatement_kept (hfits.framedExtent_eq (by simp [hk]))]
    simp only [statement, hk]
    exact ⟨_, rfl⟩

theorem draw_kept {e k : Element} (h : kept? e = some k) :
    ∃ line, draw k = .ok ⟨line, []⟩ ∧ (e.BoxFits → Language.epl.line? e = some line) := by
  obtain ⟨s, hk, he⟩ := statement_kept h
  refine ⟨statementText s, ?_, fun hfits => ?_⟩
  · rw [draw, hk]
    rfl
  · obtain ⟨notes, hs⟩ := he hfits
    rw [Language.line?, Language.draw, draw, hs]
    rfl

end ThermalLabel.Epl

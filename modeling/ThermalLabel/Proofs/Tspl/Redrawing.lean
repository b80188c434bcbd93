import ThermalLabel.Proofs.Tspl.RoundTrip

/-!
# Drawing again what TSPL keeps

What TSPL keeps of an element is drawn without notes, and by the statement of the element itself unless it is a box
whose far corner lies beyond the largest word (`statement_kept`).
-/

namespace ThermalLabel.Tspl

/-- The font in which text was drawn is the nearest to its own height. -/
theorem tsplFont_height (size : PositiveDots) : tsplFont (tsplFont size).height = tsplFont size :=
  (isNearest_tsplFont _).eq_of_height (heightsAscend_bitmapFonts .tspl) (isNearest_tsplFont size).mem

theorem statement_of_graphic {e : Element} {stroke : Stroke}
    (h : e.kind = (Shape.of e.size stroke.thickness.dots).kind stroke) :
    statement e = .ok (graphicStatement e stroke, []) := by
  have hnotes := shapeNotes_self e.size stroke
  cases hs : Shape.of e.size stroke.thickness.dots with
  | box =>
    rw [hs] at h hnotes
    simp only [statement, h, Shape.kind, hnotes]
  | line =>
    rw [hs] at h hnotes
    simp only [statement, h, Shape.kind, hnotes]

theorem graphicStatement_kept {e : Element} {stroke : Stroke}
    (h : Shape.of e.size stroke.thickness.dots = .box → framedExtent e.position e.size = e.size) :
    graphicStatement (keptGraphic e stroke) (keptStroke e.size stroke) = graphicStatement e stroke := by
  cases hs : Shape.of e.size stroke.thickness.dots with
  | box =>
    unfold graphicStatement
    simp only [keptGraphic, keptStroke, hs, h hs]
    rfl
  | line =>
    have hsolid : Shape.of (solidExtent e.size stroke) (solidStroke e.size stroke).thickness.dots = .line :=
      shape_of_solid _
    unfold graphicStatement
    simp only [keptGraphic, keptStroke, hs, hsolid, solidExtent_solidStroke]
    rfl

/-- Content that was put on one line is written again. -/
theorem dataOf_kept {e k : Element} (h : k.content = singleLine e.content) :
    dataOf k = dataOf e ∧ oneLineNotes k.content.toList = [] := by
  unfold dataOf
  rw [h, toList_singleLine, oneLine_oneLine, oneLineNotes_oneLine]
  exact ⟨rfl, rfl⟩

theorem statement_keptText (e : Element) (style : TextStyle) :
    statement (keptText e (tsplFont style.size).height style.alignment) = .ok (textStatement e style, []) := by
  have hkept := dataOf_kept (e := e) (k := keptText e (tsplFont style.size).height style.alignment) rfl
  have hnotes : fontNotes { size := (tsplFont style.size).height, alignment := style.alignment } = [] := by
    simp [fontNotes, tsplFont_height, noteIf]
  have hstatement : textStatement (keptText e (tsplFont style.size).height style.alignment)
      { size := (tsplFont style.size).height, alignment := style.alignment } = textStatement e style := by
    unfold textStatement
    rw [tsplFont_height, hkept.1]
    rfl
  have hdrawn : statement (keptText e (tsplFont style.size).height style.alignment) = .ok (_, _ ++ _) := rfl
  rw [hdrawn, hstatement, hnotes, hkept.2]
  rfl

theorem statement_keptBarcode {e k : Element} {style : BarcodeStyle} (hk : k.kind = .barcode style)
    (hp : k.position = e.position) (hr : k.rotation = e.rotation) (hc : k.content = singleLine e.content) :
    statement k = .ok (barcodeStatement e style, []) := by
  obtain ⟨hdata, hnotes⟩ := dataOf_kept hc
  have hstatement : barcodeStatement k style = barcodeStatement e style := by
    unfold barcodeStatement placed rotationOf
    rw [hp, hr, hdata]
  simp only [statement, hk, hstatement, hnotes]

theorem statement_keptQrCode {e k : Element} {style : QrStyle} (hk : k.kind = .qrCode style)
    (hp : k.position = e.position) (hr : k.rotation = e.rotation) (hc : k.content = singleLine e.content) :
    statement k = .ok (qrStatement e style, []) := by
  obtain ⟨hdata, hnotes⟩ := dataOf_kept hc
  have hstatement : qrStatement k style = qrStatement e style := by
    unfold qrStatement placed rotationOf
    rw [hp, hr, hdata]
  simp only [statement, hk, hstatement, hnotes]

/-- **What TSPL keeps of an element is drawn without notes**, and by the same statement unless it is a box cut off. -/
theorem statement_kept {e k : Element} (h : kept? e = some k) :
    ∃ s, statement k = .ok (s, []) ∧ (e.BoxFits → ∃ notes, statement e = .ok (s, notes)) := by
  cases hk : e.kind with
  | text style | price style =>
    simp only [kept?, hk, Option.some.injEq] at h
    subst h
    refine ⟨textStatement e style, statement_keptText e style, fun _ => ?_⟩
    simp only [statement, hk]
    exact ⟨_, rfl⟩
  | barcode style =>
    simp only [kept?, hk, Option.some.injEq] at h
    subst h
    refine ⟨barcodeStatement e style, statement_keptBarcode rfl rfl rfl rfl, fun _ => ?_⟩
    simp only [statement, hk]
    exact ⟨_, rfl⟩
  | qrCode style =>
    simp only [kept?, hk, Option.some.injEq] at h
    subst h
    refine ⟨qrStatement e style, statement_keptQrCode rfl rfl rfl rfl, fun _ => ?_⟩
    simp only [statement, hk]
    exact ⟨_, rfl⟩
  | image =>
    simp only [kept?, hk] at h
    cases h
  | box stroke | line stroke =>
    simp only [kept?, hk, Option.some.injEq] at h
    subst h
    refine ⟨_, statement_of_graphic (keptGraphic_kind e stroke), fun hfits => ?_⟩
    rw [graphicStatement_kept (hfits.framedExtent_eq (by simp [hk]))]
    simp only [statement, hk]
    exact ⟨_, rfl⟩

theorem draw_kept {e k : Element} (h : kept? e = some k) :
    ∃ line, draw k = .ok ⟨line, []⟩ ∧ (e.BoxFits → Language.tspl.line? e = some line) := by
  obtain ⟨s, hk, he⟩ := statement_kept h
  refine ⟨statementText s, ?_, fun hfits => ?_⟩
  · rw [draw, hk]
    rfl
  · obtain ⟨notes, hs⟩ := he hfits
    rw [Language.line?, Language.draw, draw, hs]
    rfl

end ThermalLabel.Tspl

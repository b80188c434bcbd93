import ThermalLabel.Proofs.Conversion.Regeneration
import ThermalLabel.Proofs.Conversion.Related
import ThermalLabel.Proofs.Emission.Account

/-!
# Bold text in ZPL

ZPL has no command for bold text: its characters are a fifth wider than high, and characters that are at least so much
wider are read as bold. At every size but the largest the two widths differ. **So what is read is bold iff it was
written bold or has the largest size** (`recover_bold`), at which there is no room for wider characters.
-/

namespace ThermalLabel

/-- The style of a text or price. -/
def ElementKind.textStyle? : ElementKind → Option TextStyle
  | .text style | .price style => some style
  | _ => none

theorem exists_kept_of_textStyle {e : Element} {style : TextStyle} (h : e.kind.textStyle? = some style) :
    ∃ k, Zpl.kept? e = some k ∧ k.kind = .text (Zpl.keptStyle style e.size.width) := by
  obtain ⟨id, position, size, rotation, zOrder, content, kind⟩ := e
  cases kind with
  | text style' | price style' =>
    obtain rfl : style' = style := Option.some.inj h
    exact ⟨_, rfl, rfl⟩
  | barcode | qrCode | image | box | line => cases h

/--
**The weight of text in ZPL.** Of the elements that ZPL can express, in stacking order, every text and price is read as
text, and it is read as bold iff it was bold or its size is the largest word.
-/
theorem recover_bold (stock : Stock) (es : List Element) :
    List.Forall₂ (fun e read => ∀ style, e.kind.textStyle? = some style →
        ∃ style', read.kind = .text style' ∧ style'.bold = (style.bold || style.size.dots = wordMax))
      ((stacked es).filter Language.zpl.expresses) (recover .zpl (emit .zpl stock es).program).elements := by
  have hread : (recover .zpl (emit .zpl stock es).program).elements = renumbered ((stacked es).filterMap Zpl.kept?) :=
    congrArg Recovered.elements (recover_emit .zpl stock es)
  rw [hread]
  refine forall₂_renumbered (fun e k index h => h) (forall₂_filter_filterMap ?_ ?_)
  · intro e _
    rw [← Language.isSome_line?]
    exact isSome_kept? .zpl e
  · intro e _ k hk style hstyle
    obtain ⟨k', hk', hkind⟩ := exists_kept_of_textStyle hstyle
    obtain rfl : k = k' := Option.some.inj (hk.symm.trans hk')
    exact ⟨_, hkind, rfl⟩

/-- Text of the largest size is read as bold, although it was not. -/
theorem recover_bold_at_wordMax :
    let stock : Stock := ⟨.ofNat 50, .ofNat 25, 203, .ofNat 2, by decide, by decide, by decide, by decide⟩
    let style : TextStyle := ⟨"0", ⟨wordMax, by decide⟩, false, .left⟩
    let e : Element := { id := 1, position := ⟨10, 20⟩, content := "Name", kind := .text style }
    let read := recover .zpl (emit .zpl stock [e]).program
    read.elements.map Element.kind = [.text { style with bold := true }] ∧
      read.elements.map Element.kind ≠ [e.kind] := by
  intro stock style e read
  have hread : read.elements = renumbered ((stacked [e]).filterMap Zpl.kept?) :=
    congrArg Recovered.elements (recover_emit .zpl stock [e])
  rw [stacked, List.mergeSort_singleton] at hread
  have hkind : read.elements.map Element.kind = [.text { style with bold := true }] := by
    rw [hread]
    decide
  refine ⟨hkind, ?_⟩
  rw [hkind]
  decide

end ThermalLabel

import ThermalLabel.Proofs.Zpl.Field

/-!
# Barcodes, QR codes and graphics

A barcode command makes the field the barcode it was written for, although the place of its arguments depends on the
symbology (`obeys_barcode`). The level of a QR code is read from the data again (`splitQrData_qrData`), and a graphic is
read with sides that are no shorter than its stroke (`obey_graphic`).
-/

namespace ThermalLabel.Zpl

variable {f : Format} {a : Arguments} {i : Nat}

/-! ## Barcodes -/

/-- The defaults after the bar width of a barcode is set. -/
def barDefaults (d : Defaults) (style : BarcodeStyle) : Defaults := { d with moduleWidth := style.moduleWidth }

theorem obey_barDefaults (style : BarcodeStyle) : f.obey (.caret "BY" (wordDigits style.moduleWidth.dots)) =
    { step := .setup, format := { f with defaults := barDefaults f.defaults style } } := by
  have hvalues := values_digits (.caret "BY" (wordDigits style.moduleWidth.dots)) style.moduleWidth.dots
  have hwidth := Arguments.word?_of_digits (i := 0) (w := style.moduleWidth.dots) "module_width" (by rw [hvalues]; rfl)
  have hheight : (argumentsOf (.caret "BY" (wordDigits style.moduleWidth.dots))
      (wordDigits style.moduleWidth.dots)).word? 2 "height" = .ok none := by
    rw [Arguments.word?, Arguments.get?, hvalues]
    rfl
  refine obey_of_perform (v := .barDefaults) rfl ?_
  simp only [Format.perform, Defaults.withBars, Command.caret] at hwidth hheight ⊢
  rw [hwidth, hheight]
  simp only [bind, Except.bind, PositiveDots.ofWord?_dots]
  rfl

theorem showTextArg_of_letter {showText : Bool} (h : a.values[i]? = some (if showText then ['Y'] else ['N'])) :
    showTextArg a i = .ok showText := by
  cases showText with
  | false => rw [showTextArg, Arguments.get?_of_tidy h (by decide)]; rfl
  | true => rw [showTextArg, Arguments.get?_of_tidy h (by decide)]; rfl

theorem isField_barcodeArguments (style : BarcodeStyle) (r : Rotation) :
    barcodeArguments style r ≠ [] ∧ ∀ t ∈ barcodeArguments style r, IsField t := by
  have hrotation := isField_rotation r
  have hheight := isField_digits style.moduleHeight.dots
  have hshow : IsField (if style.showText then ['Y'] else ['N']) := by cases style.showText <;> decide
  have hn : IsField ['N'] := by decide
  have hy : IsField ['Y'] := by decide
  rw [barcodeArguments]
  cases style.symbology <;> simp [hrotation, hheight, hshow, hn, hy]

theorem isHead_symbology (s : Symbology) :
    IsHead (s.token .zpl).toList ∧ Verb.of? .caret (s.token .zpl).toList = some (.barcode s) := by
  cases s <;> exact ⟨by decide, rfl⟩

/-- The height and the letter for the text stand where the symbology has them. -/
theorem barcodeArguments_index (style : BarcodeStyle) (r : Rotation) :
    let index := if style.symbology = .code39 then 2 else 1
    (barcodeArguments style r)[0]? = some (r.token .zpl).toList ∧
      (barcodeArguments style r)[index]? = some (wordDigits style.moduleHeight.dots) ∧
      (barcodeArguments style r)[index + 1]? = some (if style.showText then ['Y'] else ['N']) := by
  rw [barcodeArguments]
  cases style.symbology <;> exact ⟨rfl, rfl, rfl⟩

theorem barcode_of_values {style : BarcodeStyle} {r : Rotation} (ha : a.values = barcodeArguments style r)
    (h : f.defaults.moduleWidth = style.moduleWidth) : f.barcode style.symbology a = .ok (.barcode style r) := by
  obtain ⟨hrotation, hheight, hshow⟩ := barcodeArguments_index style r
  rw [← ha] at hrotation hheight hshow
  rw [Format.barcode, rotationArg?_of_token hrotation]
  simp only [bind, Except.bind, positiveArgOr_of_digits "height" _ hheight, showTextArg_of_letter hshow, h]
  rfl

theorem obey_barcode {style : BarcodeStyle} (r : Rotation) (h : f.defaults.moduleWidth = style.moduleWidth) :
    f.obey (.caret (style.symbology.token .zpl) (body (barcodeArguments style r))) =
      { step := .setup, format := { f with field := { f.field with symbol := some (.barcode style r) } } } := by
  obtain ⟨hne, hfields⟩ := isField_barcodeArguments style r
  have hvalues := values_body (.caret (style.symbology.token .zpl) (body (barcodeArguments style r))) hne hfields
  have hbarcode := barcode_of_values hvalues h
  refine obey_of_perform (isHead_symbology style.symbology).2 ?_
  simp only [Format.perform, Command.caret] at hbarcode ⊢
  rw [hbarcode]
  rfl

theorem writable_barcode (style : BarcodeStyle) (r : Rotation) : ∀ c ∈ barcodeCommands style r, c.Writable := by
  refine List.forall_mem_cons.2 ⟨writable_caret (by decide) (isField_digits _).2, List.forall_mem_singleton.2 ?_⟩
  exact writable_caret (isHead_symbology style.symbology).1 (inner_body (isField_barcodeArguments style r).2)

/-- Making a field a barcode also sets the bar width of those after it. -/
theorem obeys_barcode (style : BarcodeStyle) (r : Rotation) : Obeys f (barcodeCommands style r) []
    ⟨{ f.field with symbol := some (.barcode style r) }, barDefaults f.defaults style⟩ :=
  .setup (obey_barDefaults style) (.setup (obey_barcode r rfl) .nil)

/-! ## QR codes -/

theorem obey_qrCode (style : QrStyle) : f.obey (qrCommand style) = { step := .setup, format :=
    { f with field := { f.field with symbol := some (.qrCode style.moduleSize (some style.errorCorrection)) } } } := by
  have hletter : IsField [style.errorCorrection.letter] ∧ Text.Tidy [style.errorCorrection.letter] := by
    cases style.errorCorrection <;> decide
  have hvalues : (argumentsOf (qrCommand style) (qrCommand style).body).values =
      [['N'], ['2'], wordDigits style.moduleSize.dots, [style.errorCorrection.letter]] := by
    refine values_body _ (by simp) ?_
    simp only [List.forall_mem_cons, List.not_mem_nil, false_implies, implies_true, and_true]
    exact ⟨by decide, by decide, isField_digits _, hletter.1⟩
  have hsize : moduleSizeArg (argumentsOf (qrCommand style) (qrCommand style).body) = .ok style.moduleSize := by
    rw [moduleSizeArg, Arguments.wordOr_of_digits (w := style.moduleSize.dots) _ _ (by rw [hvalues]; rfl)]
    simp only [bind, Except.bind, ModuleSize.ofWord_dots]
    rfl
  have hlevel : levelArg? (argumentsOf (qrCommand style) (qrCommand style).body) =
      .ok (some style.errorCorrection) := by
    rw [levelArg?, Arguments.get?_of_tidy (v := [style.errorCorrection.letter]) (by rw [hvalues]; rfl) hletter.2]
    simp only [ErrorCorrection.ofText_letter]
  refine obey_of_perform (v := .qrCode) rfl ?_
  simp only [Format.perform, hsize, hlevel]
  rfl

theorem writable_qrCode (style : QrStyle) : (qrCommand style).Writable := by
  refine writable_caret (by decide) (inner_body ?_)
  simp only [List.forall_mem_cons, List.not_mem_nil, false_implies, implies_true, and_true]
  refine ⟨by decide, by decide, isField_digits _, ?_⟩
  cases style.errorCorrection <;> decide

/-- The level in front of the data of a QR code is read from it. -/
theorem splitQrData_qrData (declared : Option ErrorCorrection) (style : QrStyle) (content : List Char) :
    splitQrData declared (qrData style content) = (style.errorCorrection, content) := by
  have hascii : style.errorCorrection.letter.toNat < 0x80 := by cases style.errorCorrection <;> decide
  simp only [qrData, splitQrData, hascii, true_or, and_self, if_true, ErrorCorrection.ofText_letter]

/-! ## Graphics -/

theorem graphicArg_of_digits {size : Extent} {stroke : Stroke} (hw : a.values[0]? = some (wordDigits size.width))
    (hh : a.values[1]? = some (wordDigits size.height)) (ht : a.values[2]? = some (wordDigits stroke.thickness.dots)) :
    graphicArg a = .ok (.graphic (solidExtent size stroke) stroke.thickness) := by
  rw [graphicArg, Arguments.wordOr_of_digits "thickness" 1 ht]
  simp only [bind, Except.bind, PositiveDots.atLeastOne_of_ne_zero stroke.thickness.ne_zero,
    Arguments.wordOr_of_digits "width" _ hw, Arguments.wordOr_of_digits "height" _ hh]
  rfl

/-- The arguments of a graphic: a box has a color and round corners besides. -/
theorem graphicCommand_eq (size : Extent) (stroke : Stroke) : ∃ more : List (List Char), (∀ t ∈ more, IsField t) ∧
    graphicCommand size stroke = .caret "GB" (body ([wordDigits (solidExtent size stroke).width,
      wordDigits (solidExtent size stroke).height, wordDigits stroke.thickness.dots] ++ more)) := by
  cases h : Shape.of size stroke.thickness.dots with
  | box =>
    refine ⟨[['B'], ['0']], by decide, ?_⟩
    simp only [graphicCommand, h, solidExtent_of_box h]
    rfl
  | line =>
    refine ⟨[], by decide, ?_⟩
    simp only [graphicCommand, h]
    rfl

theorem isField_graphic (size : Extent) (stroke : Stroke) {more : List (List Char)} (h : ∀ t ∈ more, IsField t) :
    ∀ t ∈ [wordDigits size.width, wordDigits size.height, wordDigits stroke.thickness.dots] ++ more, IsField t := by
  refine List.forall_mem_append.2 ⟨?_, h⟩
  simp only [List.forall_mem_cons, List.not_mem_nil, false_implies, implies_true, and_true]
  exact ⟨isField_digits _, isField_digits _, isField_digits _⟩

theorem obey_graphic (size : Extent) (stroke : Stroke) : f.obey (graphicCommand size stroke) =
    { step := .content (.graphic (solidExtent size stroke) stroke.thickness), format := f } := by
  obtain ⟨more, hmore, hc⟩ := graphicCommand_eq size stroke
  rw [hc]
  have hvalues := values_body (.caret "GB" (body ([wordDigits (solidExtent size stroke).width,
    wordDigits (solidExtent size stroke).height, wordDigits stroke.thickness.dots] ++ more))) (by simp)
    (isField_graphic (solidExtent size stroke) stroke hmore)
  have hcontent := @graphicArg_of_digits _ (solidExtent size stroke) stroke (by rw [hvalues]; rfl)
    (by rw [hvalues]; rfl) (by rw [hvalues]; rfl)
  rw [solidExtent_solidExtent] at hcontent
  refine obey_of_perform (v := .graphic) rfl ?_
  simp only [Format.perform, Command.caret] at hcontent ⊢
  rw [hcontent]
  rfl

theorem writable_graphic (size : Extent) (stroke : Stroke) : (graphicCommand size stroke).Writable := by
  obtain ⟨more, hmore, hc⟩ := graphicCommand_eq size stroke
  rw [hc]
  exact writable_caret (by decide) (inner_body (isField_graphic _ _ hmore))

end ThermalLabel.Zpl

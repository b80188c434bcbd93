import ThermalLabel.Conversion
import ThermalLabel.Proofs.Line.Drawing

/-!
# Reading a TSPL program back

A statement is read with the name and the arguments it was written with (`interpret_statementText`). The two forms of
text are told apart by the number of their arguments (`textForm_of_values`), which commas inside of quotes do not
change. Hence the line of an element draws what TSPL keeps of it (`drawsLine_kept`), and the whole program is recovered
as the kept elements in stacking order (`recover_program`).
-/

namespace ThermalLabel.Tspl

/-! ## Statements -/

/-- A name in capital letters up to the blank after it. -/
theorem splitName_append {name : List Char} (hupper : Text.upper name = name)
    (hname : ∀ c ∈ name, Text.isBlank c = false) (rest : List Char) :
    splitName (name ++ ' ' :: rest) = (name, rest) := by
  have hall : ∀ c ∈ name, (!Text.isBlank c) = true := fun c hc => by rw [hname c hc]; rfl
  have hblank : (!Text.isBlank ' ') = false := rfl
  rw [splitName, List.takeWhile_append_of_pos hall, List.dropWhile_append_of_pos hall,
    List.takeWhile_cons_of_neg (by rw [hblank]; exact Bool.false_ne_true),
    List.dropWhile_cons_of_neg (by rw [hblank]; exact Bool.false_ne_true), List.append_nil, hupper]
  rfl

/-- The name of a command: capital letters without blanks. -/
def IsName (name : List Char) : Prop := name ≠ [] ∧ Text.upper name = name ∧ name.all (!Text.isBlank ·)

instance : DecidablePred IsName := fun name =>
  inferInstanceAs (Decidable (name ≠ [] ∧ Text.upper name = name ∧ name.all (!Text.isBlank ·)))

theorem IsName.isBlank_eq_false {name : List Char} (h : IsName name) : ∀ c ∈ name, Text.isBlank c = false := by
  intro c hc
  simpa using List.all_eq_true.1 h.2.2 c hc

section Statements

variable {name : List Char} {as : List Argument}

theorem statementText_of_ne_nil (hne : as ≠ []) :
    statementText ⟨name, as⟩ = name ++ [' '] ++ argumentsText .bracket as := by
  rw [statementText, if_neg (by simpa using hne), List.append_assoc]
  rfl

variable (hname : IsName name) (hne : as ≠ []) (h : ∀ a ∈ as, a.Written)

include hname hne h

theorem isLine_statementText : IsLine (statementText ⟨name, as⟩) := by
  have hline : IsLine name := by
    refine ⟨Text.tidy_of_all hname.1 hname.isBlank_eq_false, fun hm => ?_⟩
    exact absurd (hname.isBlank_eq_false _ hm) (by decide)
  rw [statementText_of_ne_nil hne]
  exact isLine_append .bracket hline (by decide) hne h

/-- A statement is read with its name and the arguments it was written with. -/
theorem interpret_statementText : interpret (statementText ⟨name, as⟩) =
    perform (statementText ⟨name, as⟩) ⟨name, as.map Argument.value⟩ := by
  have hsplit : splitName (statementText ⟨name, as⟩) = (name, argumentsText .bracket as) := by
    rw [statementText_of_ne_nil hne, List.append_assoc]
    exact splitName_append hname.2.1 hname.isBlank_eq_false _
  rw [interpret, hsplit]
  simp only [argumentsIn_argumentsText .bracket name hne h]
  rfl

/-- A statement whose arguments draw an element makes a line that draws it. -/
theorem drawsLine_statementText {ss : List Step} {e : Element}
    (hp : ∀ line, perform line ⟨name, as.map Argument.value⟩ = .ok ss) (hd : Draws ss [e]) :
    DrawsLine interpret (statementText ⟨name, as⟩) e := by
  refine ⟨isLine_statementText hname hne h, ss, ?_, hd⟩
  rw [interpret_statementText hname hne h, hp]

end Statements

/-! ## Elements -/

section Elements

variable {a : Arguments} (e : Element)

theorem written_rotationOf : (rotationOf e).Written := e.rotation.written_token .tspl

theorem written_dataOf : (dataOf e).Written := written_oneLine _

theorem written_placed : ∀ a ∈ placed e, a.Written := written_words [_, _]

/-- A font is found by the index that is written for it. -/
theorem fontArg_of_index {f : BitmapFont} (hf : f ∈ tsplFonts) (h : a.values[2]? = some (decimal f.index)) :
    fontArg a = .ok f := by
  have hindices : ∀ f ∈ tsplFonts, f.index ≤ 255 := by decide
  have hfont : Language.tspl.bitmapFont? f.index = some f := bitmapFont?_index hf
  rw [fontArg, Arguments.get?_of_tidy h (tidy_decimal _)]
  simp only [Option.getD_some, readBounded_decimal (hindices f hf), Option.bind_some, hfont]

theorem alignmentArg_of_digit {d : Char} {alignment : Alignment} (hd : alignmentArguments alignment = [.plain [d]])
    (h : a.values[6]? = some [d]) : alignmentArg a = .ok alignment := by
  cases alignment with
  | left => cases hd
  | center =>
    obtain rfl : '2' = d := by simpa [alignmentArguments] using hd
    rw [alignmentArg, Arguments.get?_of_tidy h (by decide)]
    rfl
  | right =>
    obtain rfl : '3' = d := by simpa [alignmentArguments] using hd
    rw [alignmentArg, Arguments.get?_of_tidy h (by decide)]
    rfl

theorem alignmentArguments_eq (alignment : Alignment) :
    alignment = .left ∧ alignmentArguments alignment = [] ∨ ∃ d, alignmentArguments alignment = [.plain [d]] := by
  cases alignment with
  | left => exact .inl ⟨rfl, rfl⟩
  | center => exact .inr ⟨_, rfl⟩
  | right => exact .inr ⟨_, rfl⟩

/-- The alignment is read from the number of arguments and, unless it is left, from the one before the data. -/
theorem textForm_of_values (style : TextStyle)
    (ha : a.values = (textStatement e style).arguments.map Argument.value) :
    ∃ index, textForm a = .ok (style.alignment, index) ∧ a.raw index = oneLine e.content.toList := by
  obtain ⟨hleft, hs⟩ | ⟨d, hs⟩ := alignmentArguments_eq style.alignment
  · have hlen : a.values.length = 7 := by rw [ha, textStatement, hs]; rfl
    refine ⟨6, ?_, Arguments.raw_of_value (by rw [ha, textStatement, hs]; rfl)⟩
    rw [textForm, if_pos hlen, hleft]
  · have hlen : a.values.length = 8 := by rw [ha, textStatement, hs]; rfl
    have hvalue : a.values[6]? = some [d] := by rw [ha, textStatement, hs]; rfl
    refine ⟨7, ?_, Arguments.raw_of_value (by rw [ha, textStatement, hs]; rfl)⟩
    rw [textForm, if_neg (by omega), if_pos hlen, alignmentArg_of_digit hs hvalue]
    rfl

theorem text_of_values (style : TextStyle) (ha : a.values = (textStatement e style).arguments.map Argument.value) :
    text a = .ok (drawAt e.position (bitmapText (tsplFont style.size).height style.alignment e.rotation
      (oneLine e.content.toList))) := by
  obtain ⟨index, hform, hdata⟩ := textForm_of_values e style ha
  have hplace : a.place = .ok e.position := Arguments.place_of_digits (by rw [ha]; rfl) (by rw [ha]; rfl)
  have hfont : fontArg a = .ok (tsplFont style.size) := fontArg_of_index (isNearest_tsplFont _).mem (by rw [ha]; rfl)
  have hrotation : rotationArg a 3 = .ok e.rotation := rotationAt_token .tspl _ (by rw [ha]; rfl)
  have hfactor : a.wordOr 5 "y_multiplier" 1 = .ok 1 := Arguments.wordOr_of_digits _ _ (by rw [ha]; rfl)
  rw [text, hform, hplace, hfont, hrotation, hfactor]
  simp only [bind, Except.bind, hdata, magnified_one]
  rfl

theorem drawsLine_text (style : TextStyle) : DrawsLine interpret (statementText (textStatement e style))
    (keptText e (tsplFont style.size).height style.alignment) := by
  have hindex : (Argument.quoted (decimal (tsplFont style.size).index)).Written := (written_decimal _).2.2.2
  have halignment : ∀ a ∈ alignmentArguments style.alignment, a.Written := by
    cases style.alignment <;> decide
  have hw : ∀ a ∈ (textStatement e style).arguments, a.Written := by
    refine List.forall_mem_append.2 ⟨List.forall_mem_append.2 ⟨List.forall_mem_append.2 ⟨written_placed e, ?_⟩,
      halignment⟩, List.forall_mem_singleton.2 (written_dataOf e)⟩
    simp only [List.forall_mem_cons, List.not_mem_nil, false_implies, implies_true, and_true]
    exact ⟨hindex, written_rotationOf e, by decide, by decide⟩
  have hp : text ⟨"TEXT".toList, (textStatement e style).arguments.map Argument.value⟩ = _ := text_of_values e style rfl
  exact drawsLine_statementText (by decide) (List.cons_ne_nil _ _) hw (fun _ => hp) (draws_drawAt rfl fun _ => rfl)

theorem barcode_of_values (style : BarcodeStyle)
    (ha : a.values = (barcodeStatement e style).arguments.map Argument.value) :
    barcode a = .ok (drawAt e.position (.field (.barcode style) ⟨0, style.moduleHeight.dots⟩ e.rotation
      (singleLine e.content))) := by
  have hlen : a.values.length = 9 := by rw [ha]; rfl
  have hplace : a.place = .ok e.position := Arguments.place_of_digits (by rw [ha]; rfl) (by rw [ha]; rfl)
  have hsymbology : symbologyAt .tspl a 2 = .ok style.symbology := symbologyAt_token .tspl (by rw [ha]; rfl)
  have hheight : a.word 3 "height" = .ok style.moduleHeight.dots := Arguments.word_of_digits _ (by rw [ha]; rfl)
  have hreadable : a.wordOr 4 "readable" 0 = .ok (if style.showText then 1 else 0) := by
    have hvalue : a.values[4]? = some (if style.showText then ['1'] else ['0']) := by rw [ha]; rfl
    refine Arguments.wordOr_of_digits _ _ (hvalue.trans ?_)
    cases style.showText <;> rfl
  have hshow : ((if style.showText then 1 else 0 : UInt32) != 0) = style.showText := by cases style.showText <;> rfl
  have hrotation : rotationArg a 5 = .ok e.rotation := rotationAt_token .tspl _ (by rw [ha]; rfl)
  have hnarrow : a.word 6 "narrow" = .ok style.moduleWidth.dots := Arguments.word_of_digits _ (by rw [ha]; rfl)
  have hdata : a.raw 8 = oneLine e.content.toList := Arguments.raw_of_value (by rw [ha]; rfl)
  rw [barcode, if_neg (by omega), hplace, hsymbology, hheight, hreadable, hrotation, hnarrow, hlen]
  simp only [bind, Except.bind, hdata, hshow, barcodeOf_dots]
  rfl

theorem drawsLine_barcode (style : BarcodeStyle) :
    let kept : Element :=
      { e with content := singleLine e.content, size := ⟨0, style.moduleHeight.dots⟩, kind := .barcode style }
    DrawsLine interpret (statementText (barcodeStatement e style)) kept := by
  intro kept
  have hw : ∀ a ∈ (barcodeStatement e style).arguments, a.Written := by
    refine List.forall_mem_append.2 ⟨written_placed e, ?_⟩
    simp only [List.forall_mem_cons, List.not_mem_nil, false_implies, implies_true, and_true]
    refine ⟨(style.symbology.written_token .tspl).2.2.2, written_word _, ?_, written_rotationOf e, written_word _,
      written_word _, written_dataOf e⟩
    cases style.showText <;> decide
  have hp : barcode ⟨"BARCODE".toList, (barcodeStatement e style).arguments.map Argument.value⟩ = _ :=
    barcode_of_values e style rfl
  exact drawsLine_statementText (by decide) (List.cons_ne_nil _ _) hw (fun _ => hp) (draws_drawAt rfl fun _ => rfl)

theorem qrCode_of_values (style : QrStyle) (ha : a.values = (qrStatement e style).arguments.map Argument.value) :
    qrCode a = .ok (drawAt e.position (.field (.qrCode style) {} e.rotation (singleLine e.content))) := by
  have hlen : a.values.length = 7 := by rw [ha]; rfl
  have hplace : a.place = .ok e.position := Arguments.place_of_digits (by rw [ha]; rfl) (by rw [ha]; rfl)
  have hlevel : levelArg a = .ok style.errorCorrection := by
    have hvalue : a.values[2]? = some [style.errorCorrection.letter] := by rw [ha]; rfl
    rw [levelArg, Arguments.get?_of_tidy hvalue (by cases style.errorCorrection <;> decide)]
    simp only [Option.getD_some, ErrorCorrection.ofText_letter]
  have hcell : a.word 3 "cell_width" = .ok style.moduleSize.dots := Arguments.word_of_digits _ (by rw [ha]; rfl)
  have hrotation : rotationArg a 5 = .ok e.rotation := rotationAt_token .tspl _ (by rw [ha]; rfl)
  have hdata : a.raw 6 = oneLine e.content.toList := Arguments.raw_of_value (by rw [ha]; rfl)
  rw [qrCode, if_neg (by omega), hplace, hlevel, hcell, hrotation, hlen]
  simp only [bind, Except.bind, hdata, ModuleSize.ofWord_dots]
  rfl

theorem drawsLine_qrCode (style : QrStyle) :
    let kept : Element := { e with content := singleLine e.content, size := {}, kind := .qrCode style }
    DrawsLine interpret (statementText (qrStatement e style)) kept := by
  intro kept
  have hw : ∀ a ∈ (qrStatement e style).arguments, a.Written := by
    refine List.forall_mem_append.2 ⟨written_placed e, ?_⟩
    simp only [List.forall_mem_cons, List.not_mem_nil, false_implies, implies_true, and_true]
    refine ⟨?_, written_word _, by decide, written_rotationOf e, written_dataOf e⟩
    cases style.errorCorrection <;> decide
  have hp : qrCode ⟨"QRCODE".toList, (qrStatement e style).arguments.map Argument.value⟩ = _ :=
    qrCode_of_values e style rfl
  exact drawsLine_statementText (by decide) (List.cons_ne_nil _ _) hw (fun _ => hp) (draws_drawAt rfl fun _ => rfl)

theorem box_of_values {stroke : Stroke} (hs : Shape.of e.size stroke.thickness.dots = .box)
    (ha : a.values = (graphicStatement e stroke).arguments.map Argument.value) :
    box a = .ok (drawAt e.position
      (frame e.position (farCorner e.position e.size).x (farCorner e.position e.size).y stroke.thickness)) := by
  simp only [graphicStatement, hs] at ha
  have hplace : a.place = .ok e.position := Arguments.place_of_digits (by rw [ha]; rfl) (by rw [ha]; rfl)
  have hright : a.word 2 "x_end" = .ok (farCorner e.position e.size).x := Arguments.word_of_digits _ (by rw [ha]; rfl)
  have hbottom : a.word 3 "y_end" = .ok (farCorner e.position e.size).y := Arguments.word_of_digits _ (by rw [ha]; rfl)
  have hstroke : strokeAt a 4 = .ok stroke.thickness := strokeAt_digits (by rw [ha]; rfl)
  rw [box, hplace, hright, hbottom, hstroke]
  rfl

theorem drawsLine_graphic (stroke : Stroke) :
    DrawsLine interpret (statementText (graphicStatement e stroke)) (keptGraphic e stroke) := by
  have hw : ∀ a ∈ (graphicStatement e stroke).arguments, a.Written := by
    rw [graphicStatement]
    split
    · exact written_words [_, _, _, _, _]
    · exact written_words [_, _, _, _]
  cases hs : Shape.of e.size stroke.thickness.dots with
  | box =>
    have hp : box ⟨"BOX".toList, (graphicStatement e stroke).arguments.map Argument.value⟩ = _ := box_of_values e hs rfl
    simp only [graphicStatement, hs] at hw hp ⊢
    exact drawsLine_statementText (by decide) (by simp) hw (fun _ => hp) (draws_frame hs)
  | line =>
    simp only [graphicStatement, hs] at hw ⊢
    exact drawsLine_statementText (by decide) (by simp) hw (fun _ => solidBar_digits rfl rfl rfl rfl) (draws_solid hs)

/-- **The line of an element draws what TSPL keeps of it.** -/
theorem drawsLine_kept : Option.Rel (DrawsLine interpret) (Language.tspl.line? e) (kept? e) := by
  cases hk : e.kind with
  | text style | price style =>
    simp only [Language.line?, Language.draw, draw, statement, kept?, hk, Except.map]
    exact .some (drawsLine_text e style)
  | barcode style =>
    simp only [Language.line?, Language.draw, draw, statement, kept?, hk, Except.map]
    exact .some (hk ▸ drawsLine_barcode e style)
  | qrCode style =>
    simp only [Language.line?, Language.draw, draw, statement, kept?, hk, Except.map]
    exact .some (hk ▸ drawsLine_qrCode e style)
  | image =>
    simp only [Language.line?, Language.draw, draw, statement, kept?, hk, Except.map]
    exact .none
  | box stroke | line stroke =>
    simp only [Language.line?, Language.draw, draw, statement, kept?, hk, Except.map]
    exact .some (drawsLine_graphic e stroke)

end Elements

/-! ## Programs -/

/-- A length is written with its unit after a blank. -/
theorem written_dotsArgument (w : UInt32) : (dotsArgument w).Written := by
  have hdigits := written_word w
  refine ⟨?_, ?_, ?_, ?_⟩
  · have hunit : Text.Tidy "dot".toList := by decide
    have htidy := hdigits.1.append [' '] hunit
    rw [List.append_assoc] at htidy
    exact htidy
  · exact fun hm => (List.mem_append.1 hm).elim hdigits.2.1 (by decide)
  · exact fun hm => (List.mem_append.1 hm).elim hdigits.2.2.1 (by decide)
  · exact fun hm => (List.mem_append.1 hm).elim hdigits.2.2.2 (by decide)

theorem written_lengths (w h : UInt32) : ∀ a ∈ [dotsArgument w, dotsArgument h], a.Written := by
  simp only [List.forall_mem_cons, List.not_mem_nil, false_implies, implies_true, and_true]
  exact ⟨written_dotsArgument w, written_dotsArgument h⟩

/-- **A length in dots is read as the number it was written for.** -/
theorem dotsArg_dotsArgument {i : Nat} {w : UInt32} {a : Arguments} (field : String)
    (h : a.values[i]? = some (dotsArgument w).value) : dotsArg a i field = .ok (some w) := by
  have hstrip : stripUnit ['d', 'o', 't'] (dotsArgument w).value = some (wordDigits w ++ [' ']) := by
    simp [stripUnit, dotsArgument, Argument.value, Text.stripLead]
  have htrim : Text.trim (wordDigits w ++ [' ']) = wordDigits w := Text.trim_concat (written_word w).1 rfl
  rw [dotsArg, Arguments.get?_of_tidy h (written_dotsArgument w).1]
  simp only [hstrip, htrim, readWord_wordDigits]

theorem interpret_size (w h : UInt32) :
    interpret (statementText ⟨"SIZE".toList, [dotsArgument w, dotsArgument h]⟩) = .ok [.page (some w) (some h)] := by
  have hp : size ⟨"SIZE".toList, [dotsArgument w, dotsArgument h].map Argument.value⟩ =
      .ok [.page (some w) (some h)] := by
    rw [size, dotsArg_dotsArgument "width" (w := w) rfl, dotsArg_dotsArgument "height" (w := h) rfl]
    rfl
  rw [interpret_statementText (by decide) (by simp) (written_lengths w h)]
  exact hp

theorem interpret_gap (g : UInt32) :
    interpret (statementText ⟨"GAP".toList, [dotsArgument g, dotsArgument 0]⟩) = .ok [.setup] := by
  rw [interpret_statementText (by decide) (by simp) (written_lengths g 0)]
  rfl

/-- The lines around the elements are read back as they are written. -/
theorem isLine_frame (stock : Stock) : ∀ line ∈ header stock ++ footer, IsLine line := by
  intro line hline
  rcases List.mem_append.1 hline with hline | hline
  · obtain ⟨statement, hs, rfl⟩ := List.mem_map.1 hline
    simp only [List.mem_cons, List.not_mem_nil, or_false] at hs
    rcases hs with rfl | rfl | rfl | rfl
    · exact isLine_statementText (by decide) (by simp) (written_lengths _ _)
    · exact isLine_statementText (by decide) (by simp) (written_lengths _ _)
    · decide
    · decide
  · rw [List.mem_singleton.1 hline]
    decide

/-- **A written program is recovered as what TSPL keeps of its elements.** -/
theorem recover_program (stock : Stock) (es : List Element) :
    let program := unlines (header stock ++ (stacked es).filterMap Language.tspl.line? ++ footer)
    recover program = .complete ⟨stock.widthDots, stock.heightDots⟩ (Text.byteLength program)
      ((stacked es).filterMap kept?) := by
  refine recoverLines_unlines (isLine_frame stock) ?_ .atOnce rfl (forall₂_kept .tspl drawsLine_kept (stacked es))
  simp only [header, List.map_cons, List.map_nil, List.flatMap_cons, List.flatMap_nil, interpret_size, interpret_gap]
  rfl

end ThermalLabel.Tspl

namespace ThermalLabel

/--
**Reading back what was written in TSPL.** Nothing is skipped, the page is that of the stock, and the elements are what
TSPL keeps of those written, one for one in stacking order. There is nothing to report but that no element was written.
-/
theorem recover_emit_tspl (stock : Stock) (es : List Element) :
    let written := emit .tspl stock es
    let read := recover .tspl written.program
    read.skipped = 0 ∧ read.page = some ⟨stock.widthDots, stock.heightDots⟩ ∧
      read.elements = renumbered ((stacked es).filterMap Tspl.kept?) ∧
      read.diagnostics.map Diagnostic.id = if written.emitted = 0 then ["LBL1104"] else [] := by
  intro written read
  have hread : read = Tspl.recover _ := congrArg Tspl.recover String.toList_ofList
  rw [emitted_eq_length .tspl]
  exact Recovered.of_complete (hread.trans (Tspl.recover_program stock es))

end ThermalLabel

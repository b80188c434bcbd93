import ThermalLabel.Conversion
import ThermalLabel.Proofs.Line.Drawing

/-!
# Reading an EPL2 program back

Each statement of a written program is read with the arguments it was written with (`interpret_statementText`), and so
the line of an element draws what EPL2 keeps of it (`drawsLine_kept`). Hence the whole program is recovered as the kept
elements in stacking order (`recover_program`).
-/

namespace ThermalLabel.Epl

/-! ## Statements -/

/-- The name of one letter, unless a name of two letters begins with it. -/
theorem splitName_cons {c : Char} (hl : c ≠ 'L') (hj : c ≠ 'J') (rest : List Char) :
    splitName (c :: rest) = ([c], rest) := by
  have hlong : (c :: rest).take 2 ∉ longNames := by
    intro h
    simp only [longNames, List.take_succ_cons, List.mem_cons, List.cons.injEq, List.not_mem_nil, or_false] at h
    rcases h with h | h | h
    · exact hl h.1
    · exact hj h.1
    · exact hj h.1
  rw [splitName, if_neg hlong]
  rfl

theorem isLine_statementText {name : List Char} {as : List Argument} (hline : IsLine name) (hne : as ≠ [])
    (h : ∀ a ∈ as, a.Written) : IsLine (statementText ⟨name, as⟩) := by
  have := isLine_append .backslash hline List.not_mem_nil hne h
  rw [List.append_nil] at this
  exact this

/-- A statement is read with its name and the arguments it was written with. -/
theorem interpret_statementText {name : List Char} {as : List Argument}
    (hname : ∀ rest, splitName (name ++ rest) = (name, rest)) (hcomment : name.head?.any (· ≠ ';'))
    (hne : as ≠ []) (h : ∀ a ∈ as, a.Written) :
    interpret (statementText ⟨name, as⟩) = perform (statementText ⟨name, as⟩) (argumentsText .backslash as)
      ⟨name, as.map Argument.value⟩ := by
  have hhead : (statementText ⟨name, as⟩).head? ≠ some ';' := by
    obtain ⟨c, hc, hne⟩ := (Option.any_eq_true _ _).1 hcomment
    rw [statementText, List.head?_append, hc]
    simpa using hne
  rw [interpret, if_neg hhead, statementText, hname]
  simp only [argumentsIn_argumentsText .backslash name hne h]
  rfl

/-- A statement whose arguments draw an element makes a line that draws it. -/
theorem drawsLine_statementText {name : List Char} {as : List Argument} {ss : List Step} {e : Element}
    (hline : IsLine name) (hname : ∀ rest, splitName (name ++ rest) = (name, rest))
    (hcomment : name.head?.any (· ≠ ';')) (hne : as ≠ []) (h : ∀ a ∈ as, a.Written)
    (hp : ∀ line rest, perform line rest ⟨name, as.map Argument.value⟩ = .ok ss) (hd : Draws ss [e]) :
    DrawsLine interpret (statementText ⟨name, as⟩) e := by
  refine ⟨isLine_statementText hline hne h, ss, ?_, hd⟩
  rw [interpret_statementText hname hcomment hne h, hp]

/-! ## Elements -/

section Elements

variable {a : Arguments} (e : Element)

theorem written_placed : ∀ a ∈ placed e, a.Written := by
  simp only [placed, List.forall_mem_cons, List.not_mem_nil, false_implies, implies_true, and_true]
  exact ⟨written_word _, written_word _, e.rotation.written_token .epl⟩

/-- The index of a font is a word. -/
theorem toNat_index {f : BitmapFont} (h : f ∈ eplFonts) : (UInt32.ofNat f.index).toNat = f.index := by
  revert f
  decide

theorem text_of_values (style : TextStyle) (ha : a.values = (textStatement e style).arguments.map Argument.value) :
    text a = .ok (drawAt e.position
      (bitmapText (eplFont style.size).height .left e.rotation (oneLine e.content.toList))) := by
  have hmem := (isNearest_eplFont style.size).mem
  have hfont :
      Language.epl.bitmapFont? (UInt32.ofNat (eplFont style.size).index).toNat = some (eplFont style.size) := by
    rw [toNat_index hmem]
    exact bitmapFont?_index hmem
  have hlen : ¬a.values.length < 8 := by rw [ha]; exact Nat.lt_irrefl 8
  have hplace : a.place = .ok e.position := Arguments.place_of_digits (by rw [ha]; rfl) (by rw [ha]; rfl)
  have hrotation : rotationArg a = .ok e.rotation := rotationAt_token .epl _ (by rw [ha]; rfl)
  have hindex : a.word 3 "font" = .ok (UInt32.ofNat (eplFont style.size).index) :=
    Arguments.word_of_digits _ (by rw [ha, wordDigits, toNat_index hmem]; rfl)
  have hfactor : a.wordOr 5 "vertical_multiplier" 1 = .ok 1 := Arguments.wordOr_of_digits _ _ (by rw [ha]; rfl)
  have hdata : a.raw 7 = oneLine e.content.toList := Arguments.raw_of_value (by rw [ha]; rfl)
  rw [text, if_neg hlen, hplace, hrotation, hindex, hfactor, hdata]
  simp only [bind, Except.bind, hfont, magnified_one]
  rfl

theorem drawsLine_text (style : TextStyle) :
    DrawsLine interpret (statementText (textStatement e style)) (keptText e (eplFont style.size).height .left) := by
  have hw : ∀ a ∈ (textStatement e style).arguments, a.Written := by
    refine List.forall_mem_append.2 ⟨written_placed e, ?_⟩
    simp only [List.forall_mem_cons, List.not_mem_nil, false_implies, implies_true, and_true]
    exact ⟨written_decimal _, by decide, by decide, by decide, written_oneLine _⟩
  have hp : text ⟨['A'], (textStatement e style).arguments.map Argument.value⟩ = _ := text_of_values e style rfl
  exact drawsLine_statementText (by decide) (splitName_cons (by decide) (by decide)) rfl (by simp) hw
    (fun _ _ => hp) (draws_drawAt rfl fun _ => rfl)

/-- Whether the text of a barcode is printed is read from its letter. -/
theorem showTextArg_of_letter {showText : Bool} (h : a.values[7]? = some (if showText then ['B'] else ['N'])) :
    showTextArg a = .ok showText := by
  cases showText with
  | false => rw [showTextArg, Arguments.get?_of_tidy h (by decide)]; rfl
  | true => rw [showTextArg, Arguments.get?_of_tidy h (by decide)]; rfl

theorem barcode_of_values (style : BarcodeStyle)
    (ha : a.values = (barcodeStatement e style).arguments.map Argument.value) :
    barcode a = .ok (drawAt e.position (.field (.barcode style) ⟨0, style.moduleHeight.dots⟩ e.rotation
      (singleLine e.content))) := by
  have hlen : ¬a.values.length < 9 := by rw [ha]; exact Nat.lt_irrefl 9
  have hplace : a.place = .ok e.position := Arguments.place_of_digits (by rw [ha]; rfl) (by rw [ha]; rfl)
  have hrotation : rotationArg a = .ok e.rotation := rotationAt_token .epl _ (by rw [ha]; rfl)
  have hsymbology : symbologyAt .epl a 3 = .ok style.symbology := symbologyAt_token .epl (by rw [ha]; rfl)
  have hnarrow : a.word 4 "narrow" = .ok style.moduleWidth.dots := Arguments.word_of_digits _ (by rw [ha]; rfl)
  have hheight : a.word 6 "height" = .ok style.moduleHeight.dots := Arguments.word_of_digits _ (by rw [ha]; rfl)
  have hshow : showTextArg a = .ok style.showText := showTextArg_of_letter (by rw [ha]; rfl)
  have hdata : a.raw 8 = oneLine e.content.toList := Arguments.raw_of_value (by rw [ha]; rfl)
  rw [barcode, if_neg hlen, hplace, hrotation, hsymbology, hnarrow, hheight, hshow, hdata]
  simp only [bind, Except.bind, barcodeOf_dots]
  rfl

theorem drawsLine_barcode (style : BarcodeStyle) :
    let kept : Element :=
      { e with content := singleLine e.content, size := ⟨0, style.moduleHeight.dots⟩, kind := .barcode style }
    DrawsLine interpret (statementText (barcodeStatement e style)) kept := by
  intro kept
  have hw : ∀ a ∈ (barcodeStatement e style).arguments, a.Written := by
    refine List.forall_mem_append.2 ⟨written_placed e, ?_⟩
    simp only [List.forall_mem_cons, List.not_mem_nil, false_implies, implies_true, and_true]
    refine ⟨style.symbology.written_token .epl, written_word _, written_word _, written_word _, ?_, written_oneLine _⟩
    cases style.showText <;> decide
  have hp : barcode ⟨['B'], (barcodeStatement e style).arguments.map Argument.value⟩ = _ :=
    barcode_of_values e style rfl
  exact drawsLine_statementText (by decide) (splitName_cons (by decide) (by decide)) rfl (by simp) hw
    (fun _ _ => hp) (draws_drawAt rfl fun _ => rfl)

theorem box_of_values {stroke : Stroke} (hs : Shape.of e.size stroke.thickness.dots = .box)
    (ha : a.values = (graphicStatement e stroke).arguments.map Argument.value) :
    box a = .ok (drawAt e.position
      (frame e.position (farCorner e.position e.size).x (farCorner e.position e.size).y stroke.thickness)) := by
  simp only [graphicStatement, hs] at ha
  have hplace : a.place = .ok e.position := Arguments.place_of_digits (by rw [ha]; rfl) (by rw [ha]; rfl)
  have hstroke : strokeAt a 2 = .ok stroke.thickness := strokeAt_digits (by rw [ha]; rfl)
  have hright : a.word 3 "x_end" = .ok (farCorner e.position e.size).x := Arguments.word_of_digits _ (by rw [ha]; rfl)
  have hbottom : a.word 4 "y_end" = .ok (farCorner e.position e.size).y := Arguments.word_of_digits _ (by rw [ha]; rfl)
  rw [box, hplace, hstroke, hright, hbottom]
  rfl

theorem drawsLine_graphic (stroke : Stroke) :
    DrawsLine interpret (statementText (graphicStatement e stroke)) (keptGraphic e stroke) := by
  have hw : ∀ a ∈ (graphicStatement e stroke).arguments, a.Written := by
    rw [graphicStatement]
    split
    · exact written_words [_, _, _, _, _]
    · exact written_words [_, _, _, _]
  cases hs : Shape.of e.size stroke.thickness.dots with
  | box =>
    have hp : box ⟨['X'], (graphicStatement e stroke).arguments.map Argument.value⟩ = _ := box_of_values e hs rfl
    simp only [graphicStatement, hs] at hw hp ⊢
    exact drawsLine_statementText (by decide) (splitName_cons (by decide) (by decide)) rfl (by simp) hw (fun _ _ => hp)
      (draws_frame hs)
  | line =>
    simp only [graphicStatement, hs] at hw ⊢
    exact drawsLine_statementText (by decide) (fun rest => rfl) rfl (by simp) hw
      (fun _ _ => solidBar_digits rfl rfl rfl rfl) (draws_solid hs)

/-- **The line of an element draws what EPL2 keeps of it.** -/
theorem drawsLine_kept : Option.Rel (DrawsLine interpret) (Language.epl.line? e) (kept? e) := by
  cases hk : e.kind with
  | text style | price style =>
    simp only [Language.line?, Language.draw, draw, statement, kept?, hk, Except.map]
    exact .some (drawsLine_text e style)
  | barcode style =>
    simp only [Language.line?, Language.draw, draw, statement, kept?, hk, Except.map]
    exact .some (hk ▸ drawsLine_barcode e style)
  | qrCode style | image =>
    simp only [Language.line?, Language.draw, draw, statement, kept?, hk, Except.map]
    exact .none
  | box stroke | line stroke =>
    simp only [Language.line?, Language.draw, draw, statement, kept?, hk, Except.map]
    exact .some (drawsLine_graphic e stroke)

end Elements

/-! ## Programs -/

theorem interpret_width (w : UInt32) : interpret (statementText ⟨['q'], [.word w]⟩) = .ok [.page (some w) none] := by
  rw [interpret_statementText (splitName_cons (by decide) (by decide)) rfl (by simp)
    (show ∀ a ∈ [Argument.word w], a.Written from written_words [w])]
  exact congrArg (Except.map _) (Arguments.word_of_digits "width" rfl)

theorem interpret_height (h g : UInt32) :
    interpret (statementText ⟨['Q'], [.word h, .word g]⟩) = .ok [.page none (some h)] := by
  rw [interpret_statementText (splitName_cons (by decide) (by decide)) rfl (by simp)
    (show ∀ a ∈ [Argument.word h, Argument.word g], a.Written from written_words [h, g])]
  exact congrArg (Except.map _) (Arguments.word_of_digits "height" rfl)

/-- The lines around the elements are read back as they are written. -/
theorem isLine_frame (stock : Stock) : ∀ line ∈ header stock ++ footer, IsLine line := by
  intro line hline
  rcases List.mem_append.1 hline with hline | hline
  · obtain ⟨statement, hs, rfl⟩ := List.mem_map.1 hline
    simp only [List.mem_cons, List.not_mem_nil, or_false] at hs
    rcases hs with rfl | rfl | rfl
    · decide
    · exact isLine_statementText (by decide) (by simp) (written_words [_])
    · exact isLine_statementText (by decide) (by simp) (written_words [_, _])
  · rw [List.mem_singleton.1 hline]
    decide

/-- **A written program is recovered as what EPL2 keeps of its elements.** -/
theorem recover_program (stock : Stock) (es : List Element) :
    let program := unlines (header stock ++ (stacked es).filterMap Language.epl.line? ++ footer)
    recover program = .complete ⟨stock.widthDots, stock.heightDots⟩ (Text.byteLength program)
      ((stacked es).filterMap kept?) := by
  refine recoverLines_unlines (isLine_frame stock) ?_ .inTurn rfl (forall₂_kept .epl drawsLine_kept (stacked es))
  simp only [header, List.map_cons, List.map_nil, List.flatMap_cons, List.flatMap_nil, interpret_width,
    interpret_height]
  rfl

end ThermalLabel.Epl

namespace ThermalLabel

/--
**Reading back what was written in EPL2.** Nothing is skipped, the page is that of the stock, and the elements are what
EPL2 keeps of those written, one for one in stacking order. There is nothing to report but that no element was written.
-/
theorem recover_emit_epl (stock : Stock) (es : List Element) :
    let written := emit .epl stock es
    let read := recover .epl written.program
    read.skipped = 0 ∧ read.page = some ⟨stock.widthDots, stock.heightDots⟩ ∧
      read.elements = renumbered ((stacked es).filterMap Epl.kept?) ∧
      read.diagnostics.map Diagnostic.id = if written.emitted = 0 then ["LBL1104"] else [] := by
  intro written read
  have hread : read = Epl.recover _ := congrArg Epl.recover String.toList_ofList
  rw [emitted_eq_length .epl]
  exact Recovered.of_complete (hread.trans (Epl.recover_program stock es))

end ThermalLabel

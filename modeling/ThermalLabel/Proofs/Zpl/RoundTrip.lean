import ThermalLabel.Conversion
import ThermalLabel.Proofs.Zpl.Symbol

/-!
# Reading a ZPL program back

`Reads f text ss g` says what reading a text does wherever it stands between two lines. A line of obeyed commands is
read with their effects (`reads_line`), and the line of an element draws what ZPL keeps of it, whatever defaults the
elements before it have left (`drawsCommands_kept`). Hence the whole program is recovered as the kept elements in
stacking order (`recover_program`).
-/

namespace ThermalLabel.Zpl

/-! ## Reading lines -/

/-- Reading the text in the first state has these effects and ends in the second state, whatever text follows. -/
def Reads (f : Format) (text : List Char) (ss : List Step) (g : Format) : Prop :=
  ∀ (offset : Nat) (rest : List Char), ∃ offset' : Nat,
    effects (events f (segments (tokens offset (text ++ rest)))) =
      ss ++ effects (events g (segments (tokens offset' rest)))

theorem Reads.nil (f : Format) : Reads f [] [] f := fun offset _ => ⟨offset, rfl⟩

theorem Reads.append {f g h : Format} {a b : List Char} {ss ss' : List Step} (ha : Reads f a ss g)
    (hb : Reads g b ss' h) : Reads f (a ++ b) (ss ++ ss') h := by
  intro offset rest
  obtain ⟨offset', h₁⟩ := ha offset (b ++ rest)
  obtain ⟨offset'', h₂⟩ := hb offset' rest
  refine ⟨offset'', ?_⟩
  rw [List.append_assoc, h₁, h₂, List.append_assoc]

/-- **A line of obeyed commands has their effects.** -/
theorem reads_line {f g : Format} {cs : List Command} {ss : List Step} (hcs : IsCommandLine cs) (h : Obeys f cs ss g) :
    Reads f (commandsText cs ++ ['\n']) ss g := by
  intro offset rest
  refine ⟨offset + Text.byteLength (commandsText cs) + 1, ?_⟩
  rw [List.append_assoc]
  show effects (events f (segments (tokens offset (commandsText cs ++ '\n' :: rest)))) = _
  rw [segments_line rest offset hcs, h.effects_events]

theorem unlines_cons (l : List Char) (ls : List (List Char)) : unlines (l :: ls) = l ++ ['\n'] ++ unlines ls := rfl

theorem unlines_append (ls ls' : List (List Char)) : unlines (ls ++ ls') = unlines ls ++ unlines ls' :=
  List.flatMap_append

/-- A command may stand on a line of its own. -/
theorem isCommandLine_singleton {c : Command} (h : c.Writable ∧ c.isMultiline = false) : IsCommandLine [c] := by
  refine ⟨List.forall_mem_singleton.2 h.1, fun x hx => ?_⟩
  obtain rfl : c = x := Option.some.inj hx
  exact h.2

theorem commandsText_singleton (c : Command) : commandsText [c] = c.text := List.append_nil _

/-- Commands on a line each. -/
theorem reads_commands {f g : Format} {cs : List Command} {ss : List Step} (h : Obeys f cs ss g) :
    (∀ c ∈ cs, c.Writable ∧ c.isMultiline = false) → Reads f (unlines (cs.map Command.text)) ss g := by
  induction h with
  | nil => exact fun _ => .nil _
  | @setup f g h c cs ss hc _ ih =>
    intro hw
    rw [List.map_cons, unlines_cons, ← commandsText_singleton]
    exact (reads_line (isCommandLine_singleton (hw c List.mem_cons_self)) (.setup hc .nil)).append
      (ih fun x hx => hw x (List.mem_cons_of_mem _ hx))
  | @step f g h c cs s ss hc hs _ ih =>
    intro hw
    rw [List.map_cons, unlines_cons, ← commandsText_singleton]
    exact (reads_line (isCommandLine_singleton (hw c List.mem_cons_self)) (.step hc hs .nil)).append
      (ih fun x hx => hw x (List.mem_cons_of_mem _ hx))

/-! ## Elements -/

/-- Commands on a line that draw an element, whatever the defaults are, and leave no attributes to the next field. -/
def DrawsCommands (cs : List Command) (e : Element) : Prop :=
  IsCommandLine cs ∧ ∀ d : Defaults, ∃ ss d', Draws ss [e] ∧ Obeys ⟨{}, d⟩ cs ss ⟨{}, d'⟩

/-- The commands on the line of an element. -/
def elementCommands? (e : Element) : Option (List Command) :=
  match fieldCommands e with
  | .ok (cs, _) => some (originCommand e.position :: cs ++ [separatorCommand])
  | .error _ => none

theorem line?_eq (e : Element) : Language.zpl.line? e = (elementCommands? e).map commandsText := by
  rw [Language.line?, Language.draw, draw, elementCommands?]
  cases fieldCommands e with
  | ok p => rfl
  | error why => rfl

theorem isCommandLine_element {p : Point} {cs : List Command} (h : ∀ c ∈ cs, c.Writable) :
    IsCommandLine (originCommand p :: cs ++ [separatorCommand]) := by
  have horigin : (originCommand p).Writable :=
    writable_caret (by decide) (inner_body (by simp [isField_digits]))
  refine ⟨?_, fun c hc => ?_⟩
  · rw [List.cons_append]
    refine List.forall_mem_cons.2 ⟨horigin, List.forall_mem_append.2 ⟨h, List.forall_mem_singleton.2 ?_⟩⟩
    exact writable_caret (by decide) (by decide)
  · rw [List.getLast?_append_of_ne_nil _ (by simp)] at hc
    obtain rfl : separatorCommand = c := Option.some.inj hc
    rfl

/-- A field with data draws the element whose content the data gives with the attributes set before it. -/
theorem drawsCommands_field {e k : Element} {cs : List Command} {data : List Char} (hw : ∀ c ∈ cs, c.Writable)
    (hp : k.position = e.position)
    (h : ∀ d, ∃ f : Format, Obeys ⟨{}, d⟩ cs [] f ∧ f.field.indicator = none ∧
      ∀ index, (f.fieldContent data).element index e.position = k.numbered index) :
    DrawsCommands (originCommand e.position :: (cs ++ dataCommands data) ++ [separatorCommand]) k := by
  refine ⟨isCommandLine_element (List.forall_mem_append.2 ⟨hw, writable_data data⟩), fun d => ?_⟩
  obtain ⟨f, hobeys, hindicator, hcontent⟩ := h d
  have hdata := hobeys.append (obeys_data hindicator data)
  refine ⟨[.position e.position, .content (f.fieldContent data)], f.defaults, ?_, ?_⟩
  · rw [← hp] at hcontent ⊢
    exact .cons hcontent .nil
  · rw [List.cons_append, List.append_assoc]
    exact .step (obey_origin _) (by simp) hdata

section Elements

variable (e : Element)

/-- Characters are wider than high iff they were bold, or there is no room for wider ones. -/
theorem bold_iff (style : TextStyle) :
    decide (addWord style.size.dots (fifthUp style.size.dots) ≤ characterWidth style) =
      (style.bold || decide (style.size.dots = wordMax)) := by
  rw [characterWidth]
  cases hb : style.bold with
  | true => simp
  | false => simp [addWord_fifthUp_le_self style.size.ne_zero]

/-- Data in a field with the font and the block of a style is text in the style that is kept. -/
theorem fieldContent_text {f : Format} {style : TextStyle} {r : Rotation} {width : UInt32} (data : List Char)
    (hsymbol : f.field.symbol = none) (hfont : f.field.font = some (fieldFont style r))
    (hblock : f.field.block = fieldBlock? style width) :
    f.fieldContent data = .field (.text (keptStyle style width))
      ⟨if style.alignment = .left then 0 else width, style.size.dots⟩ r (String.ofList data) := by
  simp only [Format.fieldContent, hsymbol, hfont, hblock, Option.getD_some, fieldFont, bold_iff, fieldBlock?, keptStyle]
  by_cases hleft : style.alignment = .left
  · simp [hleft]
  · by_cases hw : width = 0
    · simp [hleft, hw]
    · simp [hleft, hw]

theorem drawsCommands_text (style : TextStyle) :
    DrawsCommands (originCommand e.position :: (fontCommand style e.rotation :: blockCommands style e.size.width ++
      dataCommands e.content.toList) ++ [separatorCommand])
      { e with
        size := ⟨if style.alignment = .left then 0 else e.size.width, style.size.dots⟩
        kind := .text (keptStyle style e.size.width) } := by
  refine drawsCommands_field (List.forall_mem_cons.2 ⟨writable_font _ _, writable_block _ _⟩) rfl fun d => ?_
  refine ⟨_, .setup (obey_font style e.rotation) (obeys_block rfl style e.size.width), rfl, fun index => ?_⟩
  rw [fieldContent_text e.content.toList rfl rfl rfl, String.ofList_toList]
  rfl

theorem drawsCommands_barcode (style : BarcodeStyle) :
    DrawsCommands (originCommand e.position :: (barcodeCommands style e.rotation ++ dataCommands e.content.toList) ++
      [separatorCommand]) { e with size := ⟨0, style.moduleHeight.dots⟩, kind := .barcode style } := by
  refine drawsCommands_field (writable_barcode style e.rotation) rfl fun d => ?_
  refine ⟨_, obeys_barcode style e.rotation, rfl, fun index => ?_⟩
  simp only [Format.fieldContent, String.ofList_toList]
  rfl

theorem drawsCommands_qrCode (style : QrStyle) :
    DrawsCommands (originCommand e.position :: (qrCommand style :: dataCommands (qrData style e.content.toList)) ++
      [separatorCommand]) { e with size := {}, rotation := .deg0, kind := .qrCode style } := by
  have hw : ∀ c ∈ [qrCommand style], c.Writable := List.forall_mem_singleton.2 (writable_qrCode style)
  refine drawsCommands_field hw rfl fun d => ?_
  refine ⟨_, .setup (obey_qrCode style) .nil, rfl, fun index => ?_⟩
  simp only [Format.fieldContent, splitQrData_qrData, String.ofList_toList]
  rfl

theorem keptGraphic_size (stroke : Stroke) : (keptGraphic e stroke).size = solidExtent e.size stroke := by
  rw [keptGraphic]
  cases h : Shape.of e.size stroke.thickness.dots with
  | box => exact (solidExtent_of_box h).symm
  | line => rfl

theorem drawsCommands_graphic (stroke : Stroke) :
    DrawsCommands (originCommand e.position :: [graphicCommand e.size stroke] ++ [separatorCommand])
      (keptGraphic e stroke) := by
  refine ⟨isCommandLine_element (List.forall_mem_singleton.2 (writable_graphic e.size stroke)), fun d => ?_⟩
  refine ⟨[.position e.position, .content (.graphic (solidExtent e.size stroke) stroke.thickness)], d, ?_, ?_⟩
  · refine .cons (e := keptGraphic e stroke) (fun index => ?_) .nil
    rw [Content.element, shape_solidExtent, ← keptGraphic_size]
    rfl
  · exact .step (obey_origin _) (by simp) (.step (obey_graphic _ _) (by simp) (.setup obey_separator .nil))

/-- **The line of an element draws what ZPL keeps of it.** -/
theorem drawsCommands_kept : Option.Rel DrawsCommands (elementCommands? e) (kept? e) := by
  cases hk : e.kind with
  | text style | price style =>
    simp only [elementCommands?, fieldCommands, kept?, hk]
    exact .some (drawsCommands_text e style)
  | barcode style =>
    simp only [elementCommands?, fieldCommands, kept?, hk]
    exact .some (hk ▸ drawsCommands_barcode e style)
  | qrCode style =>
    simp only [elementCommands?, fieldCommands, kept?, hk]
    exact .some (hk ▸ drawsCommands_qrCode e style)
  | image =>
    simp only [elementCommands?, fieldCommands, kept?, hk]
    exact .none
  | box stroke | line stroke =>
    simp only [elementCommands?, fieldCommands, kept?, hk]
    exact .some (drawsCommands_graphic e stroke)

end Elements

/-! ## Programs -/

/-- The lines of elements are read one after the other, each with the defaults that those before it have left. -/
theorem reads_elements {css : List (List Command)} {es : List Element} (h : List.Forall₂ DrawsCommands css es) :
    ∀ d : Defaults, ∃ ss d', Draws ss es ∧ Reads ⟨{}, d⟩ (unlines (css.map commandsText)) ss ⟨{}, d'⟩ := by
  induction h with
  | nil => exact fun d => ⟨[], d, .nil, .nil _⟩
  | @cons cs e css es he _ ih =>
    intro d
    obtain ⟨ss, d', hdraws, hobeys⟩ := he.2 d
    obtain ⟨ss', d'', hdraws', hreads⟩ := ih d'
    exact ⟨ss ++ ss', d'', hdraws.append hdraws', (reads_line he.1 hobeys).append hreads⟩

theorem writable_header (stock : Stock) :
    ∀ c ∈ [Command.caret "XA" [], .caret "CI" ['2', '8'], .caret "PW" (wordDigits stock.widthDots),
      .caret "LL" (wordDigits stock.heightDots), .caret "LH" (body [['0'], ['0']])],
      c.Writable ∧ c.isMultiline = false := by
  simp only [List.forall_mem_cons, List.not_mem_nil, false_implies, implies_true, and_true]
  refine ⟨⟨?_, rfl⟩, ⟨?_, rfl⟩, ⟨?_, rfl⟩, ⟨?_, rfl⟩, ⟨?_, rfl⟩⟩
  · exact writable_caret (by decide) (by decide)
  · exact writable_caret (by decide) (by decide)
  · exact writable_caret (by decide) (isField_digits _).2
  · exact writable_caret (by decide) (isField_digits _).2
  · exact writable_caret (by decide) (by decide)

theorem writable_footer :
    ∀ c ∈ [Command.caret "PQ" ['1'], .caret "XZ" []], c.Writable ∧ c.isMultiline = false := by
  simp only [List.forall_mem_cons, List.not_mem_nil, false_implies, implies_true, and_true]
  exact ⟨⟨writable_caret (by decide) (by decide), rfl⟩, ⟨writable_caret (by decide) (by decide), rfl⟩⟩

theorem reads_header (stock : Stock) : Reads {} (unlines (header stock))
    [.page (some stock.widthDots) none, .page none (some stock.heightDots)] {} :=
  reads_commands (.setup rfl (.setup rfl (.step (obey_pageWidth _) (by simp)
    (.step (obey_pageLength _) (by simp) (.setup rfl .nil))))) (writable_header stock)

theorem reads_footer (f : Format) : Reads f (unlines footer) [] f :=
  reads_commands (.setup rfl (.setup rfl .nil)) writable_footer

/-- **A written program is recovered as what ZPL keeps of its elements.** -/
theorem recover_program (stock : Stock) (es : List Element) :
    let program := unlines (header stock ++ (stacked es).filterMap Language.zpl.line? ++ footer)
    recover program = .complete ⟨stock.widthDots, stock.heightDots⟩ (Text.byteLength program)
      ((stacked es).filterMap kept?) := by
  intro program
  have hlines : (stacked es).filterMap Language.zpl.line? =
      ((stacked es).filterMap elementCommands?).map commandsText := by
    rw [List.map_filterMap]
    exact List.filterMap_congr fun e _ => line?_eq e
  obtain ⟨ss, d, hdraws, hreads⟩ := reads_elements (forall₂_kept .zpl drawsCommands_kept (stacked es)) {}
  have hprogram := ((reads_header stock).append hreads).append (reads_footer _)
  rw [← unlines_append, ← unlines_append, ← hlines, List.append_nil] at hprogram
  obtain ⟨offset, heffects⟩ := hprogram 0 []
  rw [List.append_nil] at heffects
  refine assemble_of_effects _ (heffects.trans ?_) .inTurn hdraws
  rw [tokens, segments, events]
  exact List.append_nil _

end ThermalLabel.Zpl

namespace ThermalLabel

/--
**Reading back what was written in ZPL.** Nothing is skipped, the page is that of the stock, and the elements are what
ZPL keeps of those written, one for one in stacking order. There is nothing to report but that no element was written.
-/
theorem recover_emit_zpl (stock : Stock) (es : List Element) :
    let written := emit .zpl stock es
    let read := recover .zpl written.program
    read.skipped = 0 ∧ read.page = some ⟨stock.widthDots, stock.heightDots⟩ ∧
      read.elements = renumbered ((stacked es).filterMap Zpl.kept?) ∧
      read.diagnostics.map Diagnostic.id = if written.emitted = 0 then ["LBL1104"] else [] := by
  intro written read
  have hread : read = Zpl.recover _ := congrArg Zpl.recover String.toList_ofList
  rw [emitted_eq_length .zpl]
  exact Recovered.of_complete (hread.trans (Zpl.recover_program stock es))

end ThermalLabel

import ThermalLabel.Proofs.Conversion.Graphic
import ThermalLabel.Proofs.Conversion.Regeneration
import ThermalLabel.Proofs.Conversion.Related

/-!
# Elements written without a note

Notes are about the size, weight and alignment of text, control characters, turned QR codes and the shape of graphics.
What is read from a program without notes is what was written (`recover_emit_of_silent`), but for what no note is about:

* the turn of a box or line, which no language draws;
* the stroke of a line in EPL2 and TSPL, where it is a solid bar and read with its shorter side as the stroke;
* the shape of a box in EPL2 and TSPL that the largest word cuts off;
* the name of a font that the language does not have;
* in ZPL, that text of the largest size is not bold.

For each of these the condition under which it is kept is exact.
-/

namespace ThermalLabel

/-! ## No notes -/

theorem noteIf_eq_nil {b : Bool} {a : Approximation} : noteIf b a = [] ↔ b = false := by
  cases b with
  | false => exact ⟨fun _ => rfl, fun _ => rfl⟩
  | true => exact ⟨nofun, nofun⟩

theorem shapeNotes_eq_nil {declared : Shape} {size : Extent} {stroke : Stroke} :
    shapeNotes declared size stroke = [] ↔ Shape.of size stroke.thickness.dots = declared := by
  unfold shapeNotes
  rw [noteIf_eq_nil, decide_eq_false_iff_not, not_not]

/-- Content without a note is on one line. -/
theorem singleLine_of_silent {content : String} (h : oneLineNotes content.toList = []) :
    singleLine content = content := by
  have hplain : ∀ c ∈ content.toList, (if Text.isControl c then ' ' else c) = c := by
    intro c hc
    exact if_neg (List.any_eq_false.1 (noteIf_eq_nil.1 h) c hc)
  rw [singleLine, oneLine, List.map_congr_left hplain, List.map_id', String.ofList_toList]

/-- What is drawn without approximations has none, however its line is written. -/
theorem notes_of_drawn {α : Type} {write : α → List Char} {drawn : Except Unsupported (α × List Approximation)} {a : α}
    {notes : List Approximation} {line : List Char} (hdrawn : drawn = .ok (a, notes))
    (h : drawn.map (fun (a, notes) => (⟨write a, notes⟩ : Drawn)) = .ok ⟨line, []⟩) : notes = [] := by
  rw [hdrawn] at h
  exact congrArg Drawn.approximations (Except.ok.inj h)

/-- An element without a note is drawn without approximation. -/
theorem draw_of_silent {l : Language} {e : Element} (h : l.notes e = []) :
    ∃ line, l.draw e = .ok ⟨line, []⟩ := by
  unfold Language.notes at h
  split at h
  · rename_i d hd
    obtain ⟨line, approximations⟩ := d
    obtain rfl : approximations = [] := List.map_eq_nil_iff.1 h
    exact ⟨line, hd⟩
  · cases h

/-! ## Faithful elements -/

/-- The names of fonts that a language keeps: in ZPL a capital letter or a digit, else the name that all text gets. -/
def Language.HasFont : Language → String → Prop
  | .zpl, font => ∃ c, Zpl.isHeadChar c = true ∧ font = String.ofList [c]
  | .epl, font | .tspl, font => font = "0"

/-- Text of a style that was written without a note is read in the second style. -/
structure TextStyle.Faithful (l : Language) (style read : TextStyle) : Prop where
  size : read.size = style.size
  alignment : read.alignment = style.alignment
  bold : read.bold = style.bold ↔ ¬(l = .zpl ∧ style.size.dots = wordMax ∧ style.bold = false)
  font : read.font = style.font ↔ l.HasFont style.font

/-- What an element that was written without a note is read as. -/
def Element.Faithful (l : Language) (e read : Element) : Prop :=
  read.position = e.position ∧
    match e.kind with
    | .text style | .price style => read.content = e.content ∧ read.rotation = e.rotation ∧
        ∃ style', read.kind = .text style' ∧ style.Faithful l style'
    | .barcode style => read.content = e.content ∧ read.rotation = e.rotation ∧ read.kind = .barcode style
    | .qrCode style => read.content = e.content ∧ read.rotation = e.rotation ∧ read.kind = .qrCode style
    | .image => False
    | .box stroke => read.rotation = .deg0 ∧ read.kind = (Shape.of (l.reach e) stroke.thickness.dots).kind stroke ∧
        (l = .zpl ∨ e.BoxFits → read.kind = .box stroke)
    | .line stroke => read.rotation = .deg0 ∧
        read.kind = .line (if l = .zpl then stroke else solidStroke e.size stroke)

/-! ## ZPL -/

namespace Zpl

theorem faithful_keptStyle {style : TextStyle} {width : UInt32} (h : blockNotes style width = []) :
    style.Faithful .zpl (keptStyle style width) where
  size := rfl
  alignment := by
    have hwidth := noteIf_eq_nil.1 h
    unfold keptStyle
    dsimp only
    split
    · rename_i hzero
      simp [hzero] at hwidth
      exact hwidth.symm
    · rfl
  bold := by
    by_cases hmax : style.size.dots = wordMax
    · cases hbold : style.bold <;> simp [keptStyle, hmax, hbold]
    · simp [keptStyle, hmax]
  font := by
    constructor
    · intro hfont
      exact ⟨_, isHeadChar_fontName style.font, hfont.symm⟩
    · rintro ⟨c, hc, hfont⟩
      rw [keptStyle, hfont, fontName_singleton hc]

/-- **ZPL** keeps what it has no note on. -/
theorem faithful_kept {e : Element} {line : List Char} (h : draw e = .ok ⟨line, []⟩) :
    ∃ k, kept? e = some k ∧ e.Faithful .zpl k := by
  obtain ⟨id, position, size, rotation, zOrder, content, kind⟩ := e
  cases kind with
  | text style | price style =>
    have hblock : blockNotes style size.width = [] := notes_of_drawn rfl h
    exact ⟨_, rfl, rfl, rfl, rfl, _, rfl, faithful_keptStyle hblock⟩
  | barcode style => exact ⟨_, rfl, rfl, rfl, rfl, rfl⟩
  | qrCode style =>
    have hupright : noteIf (rotation ≠ .deg0) (.upright rotation) = [] := notes_of_drawn rfl h
    obtain rfl : rotation = .deg0 := by simpa using noteIf_eq_nil.1 hupright
    exact ⟨_, rfl, rfl, rfl, rfl, rfl⟩
  | image => cases h
  | box stroke =>
    have hshape : shapeNotes .box size stroke = [] := notes_of_drawn rfl h
    have hkind : (Shape.of size stroke.thickness.dots).kind stroke = .box stroke := by
      rw [shapeNotes_eq_nil.1 hshape]
      rfl
    exact ⟨_, rfl, rfl, rfl, rfl, fun _ => hkind⟩
  | line stroke =>
    have hshape : shapeNotes .line size stroke = [] := notes_of_drawn rfl h
    have hkind : (Shape.of size stroke.thickness.dots).kind stroke = .line stroke := by
      rw [shapeNotes_eq_nil.1 hshape]
      rfl
    exact ⟨_, rfl, rfl, rfl, hkind⟩

end Zpl

/-! ## EPL2 and TSPL -/

/-- What EPL2 and TSPL keep of a box or line without a note. -/
theorem faithful_keptGraphic {l : Language} (hl : l ≠ .zpl) {e : Element} {stroke : Stroke} :
    (e.kind = .box stroke → shapeNotes .box e.size stroke = [] → e.Faithful l (keptGraphic e stroke)) ∧
      (e.kind = .line stroke → shapeNotes .line e.size stroke = [] → e.Faithful l (keptGraphic e stroke)) := by
  refine ⟨fun hkind hnotes => ?_, fun hkind hnotes => ?_⟩
  · have hshape := shapeNotes_eq_nil.1 hnotes
    unfold Element.Faithful keptGraphic
    simp only [hkind, hshape, true_and]
    have hreach : l.reach e = framedExtent e.position e.size := by
      cases l with
      | zpl => exact absurd rfl hl
      | epl | tspl => rfl
    rw [hreach]
    refine ⟨rfl, ?_⟩
    intro hfits
    rw [(hfits.resolve_left hl).framedExtent_eq (.inl hkind) hshape, hshape]
    rfl
  · have hshape := shapeNotes_eq_nil.1 hnotes
    unfold Element.Faithful keptGraphic
    simp only [hkind, hshape, if_neg hl, true_and]

/-- Text in a bitmap font of its size that is neither bold nor aligned otherwise. -/
theorem faithful_keptText {l : Language} (hl : l ≠ .zpl) {style : TextStyle} {height : PositiveDots}
    {alignment : Alignment} (hsize : height = style.size) (hbold : style.bold = false)
    (halignment : alignment = style.alignment) : style.Faithful l { size := height, alignment } where
  size := hsize
  alignment := halignment
  bold := ⟨fun _ h => hl h.1, fun _ => hbold.symm⟩
  font := by
    cases l with
    | zpl => exact absurd rfl hl
    | epl | tspl => exact eq_comm

/-- **EPL2** keeps what it has no note on. -/
theorem Epl.faithful_kept {e : Element} {line : List Char} (h : draw e = .ok ⟨line, []⟩) :
    ∃ k, kept? e = some k ∧ e.Faithful .epl k := by
  have hl : Language.epl ≠ .zpl := by decide
  obtain ⟨id, position, size, rotation, zOrder, content, kind⟩ := e
  cases kind with
  | text style | price style =>
    have hnotes : fontNotes style ++ oneLineNotes content.toList = [] := notes_of_drawn rfl h
    obtain ⟨hfont, hcontent⟩ := List.append_eq_nil_iff.1 hnotes
    obtain ⟨hfont, halignment⟩ := List.append_eq_nil_iff.1 hfont
    obtain ⟨hsize, hbold⟩ := List.append_eq_nil_iff.1 hfont
    have hsize : (eplFont style.size).height = style.size := by simpa using noteIf_eq_nil.1 hsize
    have halignment : style.alignment = .left := by simpa using noteIf_eq_nil.1 halignment
    refine ⟨_, rfl, rfl, singleLine_of_silent hcontent, rfl, _, rfl, ?_⟩
    exact faithful_keptText hl hsize (noteIf_eq_nil.1 hbold) halignment.symm
  | barcode style =>
    have hcontent : oneLineNotes content.toList = [] := notes_of_drawn rfl h
    exact ⟨_, rfl, rfl, singleLine_of_silent hcontent, rfl, rfl⟩
  | qrCode style | image => cases h
  | box stroke =>
    have hshape : shapeNotes .box size stroke = [] := notes_of_drawn rfl h
    exact ⟨_, rfl, (faithful_keptGraphic hl).1 rfl hshape⟩
  | line stroke =>
    have hshape : shapeNotes .line size stroke = [] := notes_of_drawn rfl h
    exact ⟨_, rfl, (faithful_keptGraphic hl).2 rfl hshape⟩

/-- **TSPL** keeps what it has no note on. -/
theorem Tspl.faithful_kept {e : Element} {line : List Char} (h : draw e = .ok ⟨line, []⟩) :
    ∃ k, kept? e = some k ∧ e.Faithful .tspl k := by
  have hl : Language.tspl ≠ .zpl := by decide
  obtain ⟨id, position, size, rotation, zOrder, content, kind⟩ := e
  cases kind with
  | text style | price style =>
    have hnotes : fontNotes style ++ oneLineNotes content.toList = [] := notes_of_drawn rfl h
    obtain ⟨hfont, hcontent⟩ := List.append_eq_nil_iff.1 hnotes
    obtain ⟨hsize, hbold⟩ := List.append_eq_nil_iff.1 hfont
    have hsize : (tsplFont style.size).height = style.size := by simpa using noteIf_eq_nil.1 hsize
    refine ⟨_, rfl, rfl, singleLine_of_silent hcontent, rfl, _, rfl, ?_⟩
    exact faithful_keptText hl hsize (noteIf_eq_nil.1 hbold) rfl
  | barcode style | qrCode style =>
    have hcontent : oneLineNotes content.toList = [] := notes_of_drawn rfl h
    exact ⟨_, rfl, rfl, singleLine_of_silent hcontent, rfl, rfl⟩
  | image => cases h
  | box stroke =>
    have hshape : shapeNotes .box size stroke = [] := notes_of_drawn rfl h
    exact ⟨_, rfl, (faithful_keptGraphic hl).1 rfl hshape⟩
  | line stroke =>
    have hshape : shapeNotes .line size stroke = [] := notes_of_drawn rfl h
    exact ⟨_, rfl, (faithful_keptGraphic hl).2 rfl hshape⟩

/-! ## Programs -/

/-- **What is kept of an element without notes** is faithful, and every such element is kept. -/
theorem faithful_of_silent {l : Language} {e : Element} (h : l.notes e = []) :
    ∃ k, l.kept? e = some k ∧ e.Faithful l k := by
  obtain ⟨line, hdraw⟩ := draw_of_silent h
  cases l with
  | zpl => exact Zpl.faithful_kept hdraw
  | epl => exact Epl.faithful_kept hdraw
  | tspl => exact Tspl.faithful_kept hdraw

theorem diagnostics_eq_nil_iff {l : Language} {stock : Stock} {es : List Element} :
    (emit l stock es).diagnostics = [] ↔ ∀ e ∈ es, l.notes e = [] := by
  rw [Emitted.diagnostics, List.map_eq_nil_iff, emit, List.flatMap_eq_nil_iff]
  exact forall_congr' fun e => by rw [stacked, List.mem_mergeSort]

/--
**What a program without a report keeps.** Reading it skips nothing and gives every element in stacking order, changed
in no more than what no note is about.
-/
theorem recover_emit_of_silent {l : Language} {stock : Stock} {es : List Element}
    (h : (emit l stock es).diagnostics = []) :
    let read := recover l (emit l stock es).program
    read.skipped = 0 ∧ List.Forall₂ (Element.Faithful l) (stacked es) read.elements := by
  intro read
  have hnotes : ∀ e ∈ stacked es, l.notes e = [] := fun e he =>
    diagnostics_eq_nil_iff.1 h e (List.mem_mergeSort.1 he)
  have hkept : List.Forall₂ (Element.Faithful l) ((stacked es).filter fun _ => true)
      ((stacked es).filterMap l.kept?) := by
    refine forall₂_filter_filterMap ?_ ?_
    · intro e he
      obtain ⟨k, hk, -⟩ := faithful_of_silent (hnotes e he)
      rw [hk, Option.isSome_some]
    · intro e he k hk
      obtain ⟨k', hk', hfaithful⟩ := faithful_of_silent (hnotes e he)
      obtain rfl : k = k' := Option.some.inj (hk.symm.trans hk')
      exact hfaithful
  rw [List.filter_true] at hkept
  have hread : read = _ := recover_emit l stock es
  rw [hread]
  refine ⟨rfl, forall₂_renumbered ?_ hkept⟩
  intro e k index hfaithful
  exact hfaithful

/-- A label with one element of each kind that TSPL draws has no note. -/
theorem recover_emit_of_silent_label :
    let stock : Stock := ⟨.ofNat 50, .ofNat 25, 203, .ofNat 2, by decide, by decide, by decide, by decide⟩
    let es : List Element :=
      [{ id := 1, position := ⟨10, 10⟩, zOrder := 3, content := "Name"
         kind := .text ⟨"0", ⟨24, by decide⟩, false, .center⟩ },
        { id := 2, position := ⟨10, 40⟩, rotation := .deg90, content := "9.99"
          kind := .price ⟨"0", ⟨48, by decide⟩, false, .left⟩ },
        { id := 3, position := ⟨10, 90⟩, content := "4006381333931"
          kind := .barcode ⟨.ean13, ⟨60, by decide⟩, .one, true⟩ },
        { id := 4, position := ⟨200, 10⟩, rotation := .deg270, content := "L[\"]"
          kind := .qrCode ⟨⟨4, by decide⟩, .high⟩ },
        { id := 5, position := ⟨0, 0⟩, size := ⟨400, 200⟩, kind := .box ⟨⟨2, by decide⟩⟩ },
        { id := 6, position := ⟨0, 100⟩, size := ⟨400, 3⟩, kind := .line ⟨⟨3, by decide⟩⟩ }]
    (emit .tspl stock es).diagnostics = [] ∧
      List.Forall₂ (Element.Faithful .tspl) (stacked es) (recover .tspl (emit .tspl stock es).program).elements := by
  intro stock es
  have hsilent : (emit .tspl stock es).diagnostics = [] := by
    refine diagnostics_eq_nil_iff.2 ?_
    simp only [es, List.forall_mem_cons, List.not_mem_nil, false_implies, implies_true, and_true]
    refine ⟨?_, ?_, ?_, ?_, ?_, ?_⟩
    all_goals rfl
  exact ⟨hsilent, (recover_emit_of_silent hsilent).2⟩

/-- A line thicker than its stroke is drawn as a bar and read with the stroke of the bar, and it is not turned. -/
theorem emit_line_silently :
    let stock : Stock := ⟨.ofNat 50, .ofNat 25, 203, .ofNat 2, by decide, by decide, by decide, by decide⟩
    let e : Element :=
      { id := 1, position := ⟨10, 20⟩, size := ⟨100, 5⟩, rotation := .deg90, kind := .line ⟨⟨3, by decide⟩⟩ }
    let read := recover .epl (emit .epl stock [e]).program
    (emit .epl stock [e]).diagnostics = [] ∧ read.elements.map Element.kind = [.line ⟨⟨5, by decide⟩⟩] ∧
      read.elements.map Element.rotation = [.deg0] ∧ read.elements.map Element.kind ≠ [e.kind] ∧
      read.elements.map Element.rotation ≠ [e.rotation] := by
  intro stock e read
  have hsilent : (emit .epl stock [e]).diagnostics = [] :=
    diagnostics_eq_nil_iff.2 (List.forall_mem_singleton.2 rfl)
  have hread : read.elements = renumbered ((stacked [e]).filterMap Epl.kept?) :=
    congrArg Recovered.elements (recover_emit .epl stock [e])
  rw [stacked, List.mergeSort_singleton] at hread
  have hkind : read.elements.map Element.kind = [.line ⟨⟨5, by decide⟩⟩] := by
    rw [hread]
    rfl
  have hrotation : read.elements.map Element.rotation = [.deg0] := by
    rw [hread]
    rfl
  refine ⟨hsilent, hkind, hrotation, ?_, ?_⟩
  · rw [hkind]
    decide
  · rw [hrotation]
    decide

end ThermalLabel

import ThermalLabel.Epl.Recovery
import ThermalLabel.Proofs.Recovery.Element
import ThermalLabel.Proofs.Recovery.Reader
import ThermalLabel.Tspl.Recovery

/-!
# What a line does

However a line of EPL2 or TSPL is cut or mangled, one of four things happens: it draws one thing at a place of its own,
it declares a page, it has no effect, or it is skipped for what stands in it (`Epl.yields_interpret`,
`Tspl.yields_interpret`).
-/

namespace ThermalLabel

/-! ## Arguments of drawing commands -/

section Drawing

variable (a : Arguments) (l : Language) (i : Nat)

theorem careful_rotationAt (expected : String) : Careful (rotationAt l a i expected) := by
  unfold rotationAt
  split
  · trivial
  · split
    · trivial
    · exact yields_malformed a _ _ _

theorem careful_symbologyAt : Careful (symbologyAt l a i) := by
  unfold symbologyAt
  dsimp only
  split
  · trivial
  · exact yields_malformed a _ _ _

theorem careful_strokeAt : Careful (strokeAt a i) := by
  refine (a.careful_word i "thickness").bind fun w _ => ?_
  split
  · trivial
  · exact yields_malformed a _ _ _

theorem yields_barcodeOf (s : Symbology) (height narrow : UInt32) (showText : Bool) (r : Rotation) (data : List Char) :
    Yields Content.Recoverable (barcodeOf a s height narrow showText r data) := by
  unfold barcodeOf
  split
  · exact Content.recoverable_field _ _ _ (.inr (.inl ⟨_, rfl⟩))
  · trivial
  · trivial

theorem careful_argumentsIn (e : QuoteEscape) (command rest : List Char) : Careful (argumentsIn e command rest) := by
  unfold argumentsIn
  split
  · trivial
  · exact yields_malformed _ _ _ _

theorem recoverable_bitmapText (height : PositiveDots) (alignment : Alignment) (r : Rotation) (data : List Char) :
    (bitmapText height alignment r data).Recoverable :=
  Content.recoverable_field _ _ _ (.inl ⟨_, rfl⟩)

end Drawing

/-! ## Lines -/

/-- The steps that draw one thing at a place of its own. -/
inductive DrawingSteps : List Step → Prop
  | intro (place : Point) {c : Content} : c.Recoverable → DrawingSteps (drawAt place c)

/-- The steps of a line that is not skipped. -/
inductive LineSteps : List Step → Prop
  | draw (place : Point) {c : Content} : c.Recoverable → LineSteps (drawAt place c)
  | page (width height : Option UInt32) : LineSteps [.page width height]
  | setup : LineSteps [.setup]

theorem DrawingSteps.lineSteps {ss : List Step} (h : DrawingSteps ss) : LineSteps ss := by
  obtain ⟨place, hc⟩ := h
  exact .draw place hc

/-- The content of a line is text, a code or a graphic. -/
theorem recoverable_line (line : Line) {steps : Except Cause (List Step)} (h : Yields LineSteps steps) :
    ∀ e ∈ line.events steps, e.Recoverable := by
  intro e he
  cases steps with
  | error cause =>
    rw [List.mem_singleton.1 he]
    trivial
  | ok ss =>
    obtain ⟨s, hs, rfl⟩ := List.mem_map.1 he
    cases h with
    | draw place hc =>
      rcases List.mem_cons.1 hs with rfl | hs
      · trivial
      · rw [List.mem_singleton.1 hs]
        exact hc
    | page width height =>
      rw [List.mem_singleton.1 hs]
      trivial
    | setup =>
      rw [List.mem_singleton.1 hs]
      trivial

theorem yields_solidBar (a : Arguments) : Yields DrawingSteps (solidBar a) := by
  refine a.careful_place.bind fun place _ => ?_
  refine (a.careful_word 2 "width").bind fun width _ => ?_
  refine (a.careful_word 3 "height").bind fun height _ => ?_
  exact DrawingSteps.intro place (Content.recoverable_graphic _ _)

namespace Epl

variable (a : Arguments)

theorem careful_rotationArg : Careful (rotationArg a) := careful_rotationAt a .epl 2 _

theorem yields_text : Yields DrawingSteps (text a) := by
  unfold text
  split
  · exact yields_malformed a _ _ _
  · refine a.careful_place.bind fun place _ => ?_
    refine (careful_rotationArg a).bind fun rotation _ => ?_
    refine (a.careful_word 3 "font").bind fun index _ => ?_
    split
    · exact yields_malformed a _ _ _
    · refine (a.careful_wordOr 5 "vertical_multiplier" 1).bind fun factor _ => ?_
      exact DrawingSteps.intro place (recoverable_bitmapText _ _ _ _)

theorem careful_showTextArg : Careful (showTextArg a) := by
  unfold showTextArg
  split
  · trivial
  · split
    · trivial
    · split
      · trivial
      · exact yields_malformed a _ _ _

theorem yields_barcode : Yields DrawingSteps (barcode a) := by
  unfold barcode
  split
  · exact yields_malformed a _ _ _
  · refine a.careful_place.bind fun place _ => ?_
    refine (careful_rotationArg a).bind fun rotation _ => ?_
    refine (careful_symbologyAt a .epl 3).bind fun symbology _ => ?_
    refine (a.careful_word 4 "narrow").bind fun narrow _ => ?_
    refine (a.careful_word 6 "height").bind fun height _ => ?_
    refine (careful_showTextArg a).bind fun showText _ => ?_
    refine (yields_barcodeOf a _ _ _ _ _ _).bind fun content hcontent => ?_
    exact DrawingSteps.intro place hcontent

theorem yields_box : Yields DrawingSteps (box a) := by
  refine a.careful_place.bind fun place _ => ?_
  refine (careful_strokeAt a 2).bind fun stroke _ => ?_
  refine (a.careful_word 3 "x_end").bind fun right _ => ?_
  refine (a.careful_word 4 "y_end").bind fun bottom _ => ?_
  exact DrawingSteps.intro place (Content.recoverable_graphic _ _)

theorem yields_perform (line rest : List Char) : Yields LineSteps (perform line rest a) := by
  unfold perform
  split
  · exact (yields_text a).mono fun _ h => h.lineSteps
  · exact (yields_barcode a).mono fun _ h => h.lineSteps
  · exact (yields_box a).mono fun _ h => h.lineSteps
  · exact (yields_solidBar a).mono fun _ h => h.lineSteps
  · exact (a.careful_word 0 "width").map fun width _ => LineSteps.page (some width) none
  · exact (a.careful_word 0 "height").map fun height _ => LineSteps.page none (some height)
  · split
    · exact LineSteps.setup
    · trivial

/-- **An EPL2 line** does one thing or is skipped. -/
theorem yields_interpret (line : List Char) : Yields LineSteps (interpret line) := by
  unfold interpret
  split
  · exact LineSteps.setup
  · exact (careful_argumentsIn _ _ _).bind fun a _ => yields_perform a _ _

end Epl

namespace Tspl

variable (a : Arguments)

theorem careful_rotationArg (i : Nat) : Careful (rotationArg a i) := careful_rotationAt a .tspl i _

theorem careful_dotsArg (i : Nat) (field : String) : Careful (dotsArg a i field) := by
  unfold dotsArg
  split
  · exact yields_malformed a _ _ _
  · split
    · trivial
    · split
      · trivial
      · exact yields_malformed a _ _ _

theorem yields_size : Yields LineSteps (size a) := by
  refine (careful_dotsArg a 0 "width").bind fun width _ => ?_
  refine (careful_dotsArg a 1 "height").bind fun height _ => ?_
  split
  · exact LineSteps.page _ _
  · exact LineSteps.setup

theorem careful_alignmentArg : Careful (alignmentArg a) := by
  unfold alignmentArg
  split
  · trivial
  · split
    · trivial
    · split
      · trivial
      · split
        · trivial
        · exact yields_malformed a _ _ _

theorem careful_textForm : Careful (textForm a) := by
  unfold textForm
  split
  · trivial
  · split
    · exact (careful_alignmentArg a).map fun _ _ => trivial
    · exact yields_malformed a _ _ _

theorem careful_fontArg : Careful (fontArg a) := by
  unfold fontArg
  dsimp only
  split
  · trivial
  · exact yields_malformed a _ _ _

theorem yields_text : Yields DrawingSteps (text a) := by
  refine (careful_textForm a).bind fun (alignment, index) _ => ?_
  refine a.careful_place.bind fun place _ => ?_
  refine (careful_fontArg a).bind fun font _ => ?_
  refine (careful_rotationArg a 3).bind fun rotation _ => ?_
  refine (a.careful_wordOr 5 "y_multiplier" 1).bind fun factor _ => ?_
  exact DrawingSteps.intro place (recoverable_bitmapText _ _ _ _)

theorem yields_barcode : Yields DrawingSteps (barcode a) := by
  unfold barcode
  split
  · exact yields_malformed a _ _ _
  · refine a.careful_place.bind fun place _ => ?_
    refine (careful_symbologyAt a .tspl 2).bind fun symbology _ => ?_
    refine (a.careful_word 3 "height").bind fun height _ => ?_
    refine (a.careful_wordOr 4 "readable" 0).bind fun readable _ => ?_
    refine (careful_rotationArg a 5).bind fun rotation _ => ?_
    refine (a.careful_word 6 "narrow").bind fun narrow _ => ?_
    refine (yields_barcodeOf a _ _ _ _ _ _).bind fun content hcontent => ?_
    exact DrawingSteps.intro place hcontent

theorem careful_levelArg : Careful (levelArg a) := by
  unfold levelArg
  dsimp only
  split
  · trivial
  · exact yields_malformed a _ _ _

theorem yields_qrCode : Yields DrawingSteps (qrCode a) := by
  unfold qrCode
  split
  · exact yields_malformed a _ _ _
  · refine a.careful_place.bind fun place _ => ?_
    refine (careful_levelArg a).bind fun level _ => ?_
    refine (a.careful_word 3 "cell_width").bind fun cell _ => ?_
    refine (careful_rotationArg a 5).bind fun rotation _ => ?_
    split
    · exact yields_malformed a _ _ _
    · exact DrawingSteps.intro place (Content.recoverable_field _ _ _ (.inr (.inr ⟨_, rfl⟩)))

theorem yields_box : Yields DrawingSteps (box a) := by
  refine a.careful_place.bind fun place _ => ?_
  refine (a.careful_word 2 "x_end").bind fun right _ => ?_
  refine (a.careful_word 3 "y_end").bind fun bottom _ => ?_
  refine (careful_strokeAt a 4).bind fun stroke _ => ?_
  exact DrawingSteps.intro place (Content.recoverable_graphic _ _)

theorem yields_perform (line : List Char) : Yields LineSteps (perform line a) := by
  unfold perform
  dsimp only
  split
  · exact (yields_text a).mono fun _ h => h.lineSteps
  split
  · exact (yields_barcode a).mono fun _ h => h.lineSteps
  split
  · exact (yields_qrCode a).mono fun _ h => h.lineSteps
  split
  · exact (yields_box a).mono fun _ h => h.lineSteps
  split
  · exact (yields_solidBar a).mono fun _ h => h.lineSteps
  split
  · exact yields_size a
  split
  · exact LineSteps.setup
  · trivial

/-- **A TSPL line** does one thing or is skipped. -/
theorem yields_interpret (line : List Char) : Yields LineSteps (interpret line) :=
  (careful_argumentsIn _ _ _).bind fun a _ => yields_perform a line

end Tspl

end ThermalLabel

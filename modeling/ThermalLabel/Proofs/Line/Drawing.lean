import ThermalLabel.Proofs.Conversion.Kept
import ThermalLabel.Proofs.Element
import ThermalLabel.Proofs.Language.Font
import ThermalLabel.Proofs.Line.Statement
import ThermalLabel.Proofs.Recovery.Arguments

/-!
# Reading drawing commands of the line languages

Each argument of a written drawing command is read as what it was written for: rotations and symbologies from their
tokens, strokes and barcodes from their dots, a font from its index. A graphic is read as the box or line that is kept
of it (`draws_frame`, `draws_solid`).
-/

namespace ThermalLabel

variable {a : Arguments} {i : Nat}

/-! ## Tokens -/

/-- The token of a rotation may stand in a statement. -/
theorem Rotation.written_token (l : Language) (r : Rotation) : (Argument.plain (r.token l).toList).Written := by
  cases l <;> cases r <;> decide

theorem Symbology.written_token (l : Language) (s : Symbology) : (Argument.plain (s.token l).toList).Written := by
  cases l <;> cases s <;> decide

theorem rotationAt_token (l : Language) {r : Rotation} (expected : String)
    (h : a.values[i]? = some (r.token l).toList) : rotationAt l a i expected = .ok r := by
  rw [rotationAt, Arguments.get?_of_tidy h (r.tidy_token l)]
  simp only [String.ofList_toList, Rotation.ofToken?_token]

theorem symbologyAt_token (l : Language) {s : Symbology} (h : a.values[i]? = some (s.token l).toList) :
    symbologyAt l a i = .ok s := by
  rw [symbologyAt, Arguments.get?_of_tidy h (s.tidy_token l)]
  simp only [Option.getD_some, String.ofList_toList, Symbology.ofToken?_token]

/-! ## Strokes and barcodes -/

theorem strokeAt_digits {t : PositiveDots} (h : a.values[i]? = some (wordDigits t.dots)) : strokeAt a i = .ok t := by
  rw [strokeAt, Arguments.word_of_digits "thickness" h]
  simp only [bind, Except.bind, PositiveDots.ofWord?_dots]
  rfl

theorem barcodeOf_dots (a : Arguments) (s : Symbology) (height narrow : PositiveDots) (showText : Bool) (r : Rotation)
    (data : List Char) : barcodeOf a s height.dots narrow.dots showText r data =
      .ok (.field (.barcode ⟨s, height, narrow, showText⟩) ⟨0, height.dots⟩ r (String.ofList data)) := by
  simp only [barcodeOf, PositiveDots.ofWord, PositiveDots.ofWord?_dots]

/-! ## Fonts -/

/-- A font that is not magnified keeps its height. -/
theorem magnified_one (f : BitmapFont) : magnified f 1 = f.height := by
  have hone : PositiveDots.atLeastOne 1 = PositiveDots.one := rfl
  have hmul : mulWord f.height.dots 1 = f.height.dots := by
    have hle := toNat_le_wordMax f.height.dots
    apply UInt32.toNat_inj.1
    rw [mulWord, toNat_clampWord, UInt32.toNat_one, Nat.mul_one]
    omega
  rw [magnified, hone, PositiveDots.scale]
  rw [show PositiveDots.one.dots = 1 from rfl, hmul, PositiveDots.ofWord?_dots, Option.getD_some]

/-! ## Graphics -/

/-- Content at the position of an element draws it. -/
theorem draws_drawAt {place : Point} {c : Content} {e : Element} (hp : e.position = place)
    (h : ∀ index, c.element index place = e.numbered index) : Draws (drawAt place c) [e] := by
  subst hp
  exact .cons h .nil

/-- A box read from its corners is the box that is kept. -/
theorem draws_frame {e : Element} {stroke : Stroke} (h : Shape.of e.size stroke.thickness.dots = .box) :
    Draws (drawAt e.position
      (frame e.position (farCorner e.position e.size).x (farCorner e.position e.size).y stroke.thickness))
      [keptGraphic e stroke] := by
  refine draws_drawAt (by simp only [keptGraphic, h]) fun index => ?_
  simp only [keptGraphic, h, frame, farCorner, subWord_addWord, framedExtent]
  rfl

/-- A line read from its sides is the line that is kept. -/
theorem draws_solid {e : Element} {stroke : Stroke} (h : Shape.of e.size stroke.thickness.dots = .line) :
    let size := solidExtent e.size stroke
    Draws (drawAt e.position (.graphic size (PositiveDots.atLeastOne (min size.width size.height))))
      [keptGraphic e stroke] := by
  intro size
  rw [PositiveDots.atLeastOne_of_ne_zero (solidExtent_ne_zero e.size stroke)]
  refine draws_drawAt (by simp only [keptGraphic, h]) fun index => ?_
  simp only [keptGraphic, h, Content.element, size, shape_of_solid]
  rfl

theorem solidBar_digits {place : Point} {width height : UInt32} (hx : a.values[0]? = some (wordDigits place.x))
    (hy : a.values[1]? = some (wordDigits place.y)) (hw : a.values[2]? = some (wordDigits width))
    (hh : a.values[3]? = some (wordDigits height)) :
    solidBar a = .ok (drawAt place (.graphic ⟨width, height⟩ (PositiveDots.atLeastOne (min width height)))) := by
  rw [solidBar, Arguments.place_of_digits hx hy, Arguments.word_of_digits "width" hw,
    Arguments.word_of_digits "height" hh]
  rfl

end ThermalLabel

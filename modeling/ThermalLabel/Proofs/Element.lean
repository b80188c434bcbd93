import ThermalLabel.Language.Token
import ThermalLabel.Proofs.Text.Fields

/-!
# Values read back from what they are written as

The checked constructors accept the dots or the letter that a value of their type is written as, and tokens need no
trimming.
-/

namespace ThermalLabel

/-! ## Positive dots -/

theorem PositiveDots.ofWord?_dots (d : PositiveDots) : ofWord? d.dots = some d := by
  rw [ofWord?, dif_pos d.ne_zero]

theorem PositiveDots.atLeastOne_of_ne_zero {w : UInt32} (h : w ≠ 0) : atLeastOne w = ⟨w, h⟩ := by
  rw [atLeastOne, ofWord?, dif_pos h, Option.getD_some]

/-! ## QR codes -/

theorem ModuleSize.ofWord_dots (m : ModuleSize) : ofWord m.dots = .ok m := by
  rw [ofWord, dif_pos m.in_range]

theorem ErrorCorrection.ofText_letter (l : ErrorCorrection) : ofText (String.ofList [l.letter]) = .ok l := by
  cases l <;> rfl

/-! ## Tokens -/

theorem Rotation.tidy_token (l : Language) (r : Rotation) : Text.Tidy (r.token l).toList := by
  cases l <;> cases r <;> decide

theorem Symbology.tidy_token (l : Language) (s : Symbology) : Text.Tidy (s.token l).toList := by
  cases l <;> cases s <;> decide

end ThermalLabel

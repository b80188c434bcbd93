import ThermalLabel.Emission.Line
import ThermalLabel.Proofs.Number.Word

/-!
# One line and solid lines

Putting content on one line and drawing a line at least as thick as its stroke change nothing the second time
(`oneLine_oneLine`, `solidExtent_solidExtent`), and the sides so drawn have the same shape (`shape_solidExtent`).
-/

namespace ThermalLabel

/-! ## Content on one line -/

theorem oneLine_controls (content : List Char) : (oneLine content).any Text.isControl = false := by
  rw [List.any_eq_false]
  intro c hc
  obtain ⟨d, -, hd⟩ := List.mem_map.1 hc
  split at hd
  · rw [← hd]
    decide
  · rename_i hctrl
    rw [← hd]
    exact hctrl

theorem oneLine_oneLine (content : List Char) : oneLine (oneLine content) = oneLine content := by
  have hid : ∀ c ∈ oneLine content, (if Text.isControl c then ' ' else c) = c := by
    intro c hc
    exact if_neg (List.any_eq_false.1 (oneLine_controls content) c hc)
  exact (List.map_congr_left hid).trans (List.map_id _)

/-- Content on one line needs no note. -/
theorem oneLineNotes_oneLine (content : List Char) : oneLineNotes (oneLine content) = [] := by
  rw [oneLineNotes, oneLine_controls]
  rfl

/-! ## Solid lines -/

/-- No side of a box is shorter than its stroke. -/
theorem solidExtent_of_box {size : Extent} {stroke : Stroke} (h : Shape.of size stroke.thickness.dots = .box) :
    solidExtent size stroke = size := by
  rw [Shape.of] at h
  split at h
  · cases h
  · have hwidth : max size.width stroke.thickness.dots = size.width := by
      apply UInt32.toNat_inj.1
      rw [toNat_max]
      omega
    have hheight : max size.height stroke.thickness.dots = size.height := by
      apply UInt32.toNat_inj.1
      rw [toNat_max]
      omega
    rw [solidExtent, hwidth, hheight]

theorem solidExtent_solidExtent (size : Extent) (stroke : Stroke) :
    solidExtent (solidExtent size stroke) stroke = solidExtent size stroke := by
  have hmax : ∀ w t : UInt32, max (max w t) t = max w t := by
    intro w t
    apply UInt32.toNat_inj.1
    rw [toNat_max, toNat_max]
    omega
  simp only [solidExtent, hmax]

/-- Sides at least as long as the stroke do not change the shape. -/
theorem shape_solidExtent (size : Extent) (stroke : Stroke) :
    Shape.of (solidExtent size stroke) stroke.thickness.dots = Shape.of size stroke.thickness.dots := by
  simp only [Shape.of, solidExtent, toNat_max]
  congr 1
  apply propext
  omega

/-- A solid bar is a line, however thick. -/
theorem shape_of_solid (size : Extent) : Shape.of size (min size.width size.height) = .line := by
  rw [Shape.of, toNat_min, if_pos (by omega)]

/-- The box or line that a shape drawn with a stroke is needs no note. -/
theorem shapeNotes_self (size : Extent) (stroke : Stroke) :
    shapeNotes (Shape.of size stroke.thickness.dots) size stroke = [] := by
  simp [shapeNotes, noteIf]

end ThermalLabel

import ThermalLabel.Element

/-!
# Boxes and lines

All languages draw rectangles and rules with one command, and the two are told apart by their measures alone: once the
strokes of two opposite sides meet, the rectangle is solid and counts as a line.
-/

namespace ThermalLabel

/-- What a graphic looks like. -/
inductive Shape where
  | box
  | line
  deriving DecidableEq, Repr

/-- The name of a shape. -/
def Shape.name : Shape → String
  | .box => "box"
  | .line => "line"

/-- The shape of a graphic: a line iff its shorter side is at most two strokes wide. -/
def Shape.of (size : Extent) (thickness : UInt32) : Shape :=
  if min size.width.toNat size.height.toNat ≤ 2 * thickness.toNat then .line else .box

/-- The kind of element that a shape drawn with a stroke is. -/
def Shape.kind : Shape → Stroke → ElementKind
  | .box, s => .box s
  | .line, s => .line s

end ThermalLabel

import ThermalLabel.Recovery.Finding

/-!
# Steps

What the scanner of a language makes of one command or line: it sets a position, draws something, declares the page, has
no effect on elements, or is skipped. A note is a finding that skips nothing.
-/

namespace ThermalLabel

/-- Something drawn at the position set before. -/
inductive Content where
  /-- Text, a barcode or a QR code. -/
  | field (kind : ElementKind) (size : Extent) (rotation : Rotation) (data : String)
  /-- A rectangle, which its measures make a box or a line. -/
  | graphic (size : Extent) (thickness : PositiveDots)
  deriving DecidableEq, Repr

/-- The effect of one command. -/
inductive Step where
  | position (place : Point)
  | content (c : Content)
  | page (width height : Option UInt32)
  | setup
  | skip (cause : Cause)
  deriving DecidableEq, Repr

/-- What a scanner reports, in the order of the program. -/
inductive Event where
  | step (s : Step) (span : Span)
  | note (f : Finding)
  deriving DecidableEq, Repr

end ThermalLabel

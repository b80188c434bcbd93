import ThermalLabel.Number.Text
import ThermalLabel.Number.Word

/-!
# Label stock

The physical label: width, height and the gap between labels in millimetres, and the density of the printer in dots per
inch. Lengths become dots by rounding to the nearest dot, a half up.

* `toDots` and `toMillimetres` convert; both round after each of their two operations on doubles.
* `Stock.make` checks the fields in the order width, height, density, gap.
-/

namespace ThermalLabel

/-- The double nearest to the number of millimetres in an inch. -/
def millimetresPerInch : Binary64 := Binary64.ofRatio false 254 10

/--
The dots of a length in millimetres. A length that is negative, no number or too long for a double has none; one beyond
the largest word has that many.
-/
def toDots (mm : Binary64) (dpi : UInt32) : UInt32 :=
  let dots := do
    let length ← mm.exactValue?
    let density ← (Binary64.ofNat dpi.toNat).exactValue?
    let inch ← millimetresPerInch.exactValue?
    let product ← (length.mul density).exactValue?
    (product.div inch).exactValue?
  match dots with
  | none => 0
  | some d => if d.negative then 0 else clampWord d.roundHalfUp

/-- The length of a number of dots in millimetres, zero at density zero. -/
def toMillimetres (dots dpi : UInt32) : Binary64 :=
  let length := do
    let count ← (Binary64.ofNat dots.toNat).exactValue?
    let density ← (Binary64.ofNat dpi.toNat).exactValue?
    let inch ← millimetresPerInch.exactValue?
    let product ← (count.mul inch).exactValue?
    some (product.div density)
  if dpi = 0 then Binary64.zero else length.getD Binary64.zero

/-- A length of the stock. -/
inductive StockLength where
  | width
  | height
  | gap
  deriving DecidableEq, Repr

/-- The name of the field. -/
def StockLength.name : StockLength → String
  | .width => "width_mm"
  | .height => "height_mm"
  | .gap => "gap_mm"

/-- The least and greatest density that printers have. -/
def minDpi : UInt32 := 100

@[inherit_doc minDpi]
def maxDpi : UInt32 := 600

/-- Why stock is refused. -/
inductive InvalidStock where
  /-- The length is not finite, or too small. -/
  | length (field : StockLength) (value : Binary64)
  | dpiTooLow (dpi : UInt32)
  | dpiTooHigh (dpi : UInt32)
  deriving DecidableEq, Repr

/-- The text of the error. -/
def InvalidStock.message : InvalidStock → String
  | .length .gap v => "invalid gap_mm: " ++ v.plainText ++ " must be a finite value >= 0"
  | .length field v => "invalid " ++ field.name ++ ": " ++ v.plainText ++ " must be a finite value > 0"
  | .dpiTooLow d => s!"invalid dpi: {d} is below minimum supported DPI ({minDpi})"
  | .dpiTooHigh d => s!"invalid dpi: {d} exceeds maximum supported DPI ({maxDpi})"

/-- Stock whose lengths are finite, width and height positive and the gap not negative, at a density printers have. -/
structure Stock where
  width : Binary64
  height : Binary64
  dpi : UInt32
  gap : Binary64
  width_ok : (width.isFinite && width.isPositive) = true
  height_ok : (height.isFinite && height.isPositive) = true
  dpi_ok : minDpi ≤ dpi ∧ dpi ≤ maxDpi
  gap_ok : (gap.isFinite && gap.isNonnegative) = true
  deriving DecidableEq, Repr

namespace Stock

/-- The gap of stock that does not state one: two millimetres. -/
def defaultGap : Binary64 := Binary64.ofNat 2

/-- Stock of the given measures. -/
def make (width height : Binary64) (dpi : UInt32) (gap : Binary64) : Except InvalidStock Stock :=
  if hw : (width.isFinite && width.isPositive) = true then
    if hh : (height.isFinite && height.isPositive) = true then
      if hl : minDpi ≤ dpi then
        if hu : dpi ≤ maxDpi then
          if hg : (gap.isFinite && gap.isNonnegative) = true then
            .ok ⟨width, height, dpi, gap, hw, hh, ⟨hl, hu⟩, hg⟩
          else .error (.length .gap gap)
        else .error (.dpiTooHigh dpi)
      else .error (.dpiTooLow dpi)
    else .error (.length .height height)
  else .error (.length .width width)

/-- Stock for a page of a size in dots, with the usual gap. -/
def ofDots (width height dpi : UInt32) : Except InvalidStock Stock :=
  make (toMillimetres width dpi) (toMillimetres height dpi) dpi defaultGap

/-- The printable width in dots. -/
def widthDots (s : Stock) : UInt32 := toDots s.width s.dpi

/-- The printable height in dots. -/
def heightDots (s : Stock) : UInt32 := toDots s.height s.dpi

/-- The gap between labels in dots. -/
def gapDots (s : Stock) : UInt32 := toDots s.gap s.dpi

end Stock

end ThermalLabel

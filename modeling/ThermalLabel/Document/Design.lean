import ThermalLabel.Design
import ThermalLabel.Document.Element

/-!
# Design and stock documents

Stock is read with its gap or the usual one, a design with its elements or none. Both are checked as soon as their last
member is read. The counter of ids is not written: it starts again above the ids of the elements.
-/

namespace ThermalLabel

namespace Document

/-- The measures of stock before they are checked. -/
structure StockDraft where
  width : Binary64 := .zero
  height : Binary64 := .zero
  dpi : UInt32 := 0
  gap : Binary64 := Stock.defaultGap

/-- The measures of stock. -/
def stockRecord : Record StockDraft := ⟨"RawLabelSize", {}, [
  ⟨"width_mm", .required, fun v s => (double v).map fun width => { s with width }⟩,
  ⟨"height_mm", .required, fun v s => (double v).map fun height => { s with height }⟩,
  ⟨"dpi", .required, fun v s => (word v).map fun dpi => { s with dpi }⟩,
  ⟨"gap_mm", .optional, fun v s => (double v).map fun gap => { s with gap }⟩]⟩

/-- Stock. -/
def stock (v : Json) : Checked Stock := do
  let s ← stockRecord.read .direct v
  match Stock.make s.width s.height s.dpi s.gap with
  | .ok stock => .ok stock
  | .error e => fault (.invalidStock e)

/-- Stock and elements before the ids are checked; without stock none was read. -/
structure DesignDraft where
  stock : Option Stock := none
  elements : List Element := []

/-- Stock and elements. The elements stand inside two containers. -/
def designRecord : Record DesignDraft := ⟨"RawDesign", {}, [
  ⟨"size", .required, fun v d => (Document.stock v).map fun stock => { d with stock := some stock }⟩,
  ⟨"elements", .optional, fun v d => (list (element 2) v).map fun elements => { d with elements }⟩]⟩

/-- A design. -/
def design (v : Json) : Checked Design := do
  let d ← designRecord.read .direct v
  match d.stock with
  | some stock => valid (Design.ofElements stock d.elements)
  | none => fault (.missingField "size")

end Document

/-- Stock in a document. -/
def Stock.document (s : Stock) : Json := .ofMembers [
  ("width_mm", .ofBinary64 s.width), ("height_mm", .ofBinary64 s.height), ("dpi", .ofWord s.dpi),
  ("gap_mm", .ofBinary64 s.gap)]

/-- A design in a document. -/
def Design.document (d : Design) : Json := .ofMembers [
  ("size", d.stock.document), ("elements", .array (d.elements.map Element.document))]

end ThermalLabel

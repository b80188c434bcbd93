import ThermalLabel.Diagnostic.Code
import ThermalLabel.Language.Font
import ThermalLabel.Shape

/-!
# Notes on written elements

Writing an element either approximates some of its attributes or leaves it out, and notes which. `Note.diagnostic` is
the report of a note.
-/

namespace ThermalLabel

/-- Why a language has no command for an element. -/
inductive Unsupported where
  | qrCode
  | image
  deriving DecidableEq, Repr

/-- The reason in words. -/
def Unsupported.message : Unsupported → String
  | .qrCode => "EPL2 has no QR code command"
  | .image => "image embedding is not supported"

/-- What is drawn otherwise than asked. -/
inductive Approximation where
  /-- Text of a size in a font of another height. -/
  | fontSize (size : PositiveDots) (font : BitmapFont)
  /-- Bold text in a language without bold fonts. -/
  | bold (l : Language)
  /-- Aligned text in a language that has none. -/
  | alwaysLeft
  /-- Aligned text in an element without a width. -/
  | widthless
  /-- A rotated QR code in a language that draws all of them upright. -/
  | upright (r : Rotation)
  /-- Content with control characters, each of which becomes a space. -/
  | controls
  /-- A box that looks like a line, or a line that looks like a box. -/
  | shape (size : Extent) (thickness : PositiveDots) (drawn : Shape)
  deriving DecidableEq, Repr

namespace Approximation

/-- The attribute approximated. -/
def attributeName : Approximation → String
  | .fontSize .. => "font_size"
  | .bold _ => "bold"
  | .alwaysLeft | .widthless => "alignment"
  | .upright _ => "rotation"
  | .controls => "content"
  | .shape .. => "shape"

/-- How it is approximated, in words. -/
def message : Approximation → String
  | .fontSize size font => s!"font size {size.dots} mapped to font {font.index} ({font.height.dots} dots)"
  | .bold .tspl => "TSPL bitmap fonts have no bold weight"
  | .bold l => l.name ++ " fonts have no bold weight"
  | .alwaysLeft => "EPL2 text is always left-aligned"
  | .widthless => "alignment needs a non-zero element width, drawn left-aligned"
  | .upright r => s!"QR codes are always drawn upright, {r.degrees}° dropped"
  | .controls => "control characters replaced with spaces"
  | .shape size thickness drawn =>
    s!"{size.width}x{size.height} with thickness {thickness.dots} is drawn as a {drawn.name}"

end Approximation

/-- A note on an element. -/
inductive Remark where
  | skipped (why : Unsupported)
  | approximated (what : Approximation)
  deriving DecidableEq, Repr

/-- A note on an element written in a language. -/
structure Note where
  language : Language
  element : Element
  remark : Remark
  deriving DecidableEq, Repr

/-- The report of a note. -/
def Note.diagnostic (n : Note) : Diagnostic :=
  let kind := n.element.kind.name
  let id := toString n.element.id
  match n.remark with
  | .skipped why => {
      id := Code.unsupportedElement.id
      severity := .info
      message := s!"{kind} element {id} skipped: " ++ why.message
      context := some [("element", id), ("kind", kind), ("language", n.language.id)] }
  | .approximated what => {
      id := Code.lossyAttribute.id
      severity := .info
      message := s!"{kind} element {id}: " ++ what.message
      context := some [("attribute", what.attributeName), ("element", id), ("language", n.language.id)] }

end ThermalLabel

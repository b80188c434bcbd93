import ThermalLabel.Emission.Note
import ThermalLabel.Line.Argument
import ThermalLabel.Text.Basic

/-!
# Written lines

The line of a program that draws one element, with what it approximates, and the rules that several languages share:
content on one line, the measures of a solid line, and the width of wide bars.
-/

namespace ThermalLabel

/-- The line that draws an element, without its line break. -/
structure Drawn where
  line : List Char
  approximations : List Approximation := []
  deriving DecidableEq, Repr

/-- An approximation if a condition holds. -/
def noteIf (b : Bool) (a : Approximation) : List Approximation := if b then [a] else []

/-- Content on one line: control characters would end the command, so each becomes a space. -/
def oneLine (content : List Char) : List Char := content.map fun c => if Text.isControl c then ' ' else c

/-- What putting content on one line changes. -/
def oneLineNotes (content : List Char) : List Approximation := noteIf (content.any Text.isControl) .controls

/-- What drawing a box or line by its measures changes. -/
def shapeNotes (declared : Shape) (size : Extent) (stroke : Stroke) : List Approximation :=
  let drawn := Shape.of size stroke.thickness.dots
  noteIf (drawn ≠ declared) (.shape size stroke.thickness drawn)

/-- The measures of a line: neither is less than its stroke. -/
def solidExtent (size : Extent) (stroke : Stroke) : Extent :=
  ⟨max size.width stroke.thickness.dots, max size.height stroke.thickness.dots⟩

/-- The corner of a box opposite to its place. -/
def farCorner (place : Point) (size : Extent) : Point := ⟨addWord place.x size.width, addWord place.y size.height⟩

/-- The width of wide bars: three times that of narrow ones where the symbology has them. -/
def wideBar (s : Symbology) (narrow : PositiveDots) : UInt32 :=
  if s.hasWideBars then mulWord narrow.dots 3 else narrow.dots

/-- A command and its arguments on a line. -/
structure Statement where
  name : List Char
  arguments : List Argument := []
  deriving DecidableEq, Repr

/-- A word as an argument. -/
def Argument.word (w : UInt32) : Argument := .plain (wordDigits w)

end ThermalLabel

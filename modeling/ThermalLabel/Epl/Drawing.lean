import ThermalLabel.Emission.Line
import ThermalLabel.Language.Token
import ThermalLabel.Stock

/-!
# Drawing in EPL2

The line that draws an element. EPL2 has neither QR codes, nor bold fonts, nor alignment, and its fonts have five
heights.
-/

namespace ThermalLabel.Epl

/-- The text of a statement: the arguments follow the name at once. -/
def statementText (s : Statement) : List Char := s.name ++ argumentsText .backslash s.arguments

/-- The position and rotation that begin most statements. -/
def placed (e : Element) : List Argument :=
  [.word e.position.x, .word e.position.y, .plain (e.rotation.token .epl).toList]

/-- What drawing text in a resident font changes. -/
def fontNotes (style : TextStyle) : List Approximation :=
  let font := eplFont style.size
  noteIf (font.height ≠ style.size) (.fontSize style.size font) ++ noteIf style.bold (.bold .epl) ++
    noteIf (style.alignment ≠ .left) .alwaysLeft

/-- The statement that draws text. -/
def textStatement (e : Element) (style : TextStyle) : Statement :=
  ⟨['A'], placed e ++ [.plain (decimal (eplFont style.size).index), .plain ['1'], .plain ['1'], .plain ['N'],
    .quoted (oneLine e.content.toList)]⟩

/-- The statement that draws a barcode. -/
def barcodeStatement (e : Element) (style : BarcodeStyle) : Statement :=
  ⟨['B'], placed e ++ [.plain (style.symbology.token .epl).toList, .word style.moduleWidth.dots,
    .word (wideBar style.symbology style.moduleWidth), .word style.moduleHeight.dots,
    .plain (if style.showText then ['B'] else ['N']), .quoted (oneLine e.content.toList)]⟩

/-- The statement that draws a box or line. -/
def graphicStatement (e : Element) (stroke : Stroke) : Statement :=
  let place := [Argument.word e.position.x, .word e.position.y]
  match Shape.of e.size stroke.thickness.dots with
  | .box =>
    let corner := farCorner e.position e.size
    ⟨['X'], place ++ [.word stroke.thickness.dots, .word corner.x, .word corner.y]⟩
  | .line =>
    let drawn := solidExtent e.size stroke
    ⟨['L', 'O'], place ++ [.word drawn.width, .word drawn.height]⟩

/-- The statement of an element, and what it approximates. -/
def statement (e : Element) : Except Unsupported (Statement × List Approximation) :=
  let controls := oneLineNotes e.content.toList
  match e.kind with
  | .text style | .price style => .ok (textStatement e style, fontNotes style ++ controls)
  | .barcode style => .ok (barcodeStatement e style, controls)
  | .qrCode _ => .error .qrCode
  | .image => .error .image
  | .box stroke => .ok (graphicStatement e stroke, shapeNotes .box e.size stroke)
  | .line stroke => .ok (graphicStatement e stroke, shapeNotes .line e.size stroke)

/-- The line of an element. -/
def draw (e : Element) : Except Unsupported Drawn :=
  (statement e).map fun (s, notes) => ⟨statementText s, notes⟩

/-- The lines in front of the elements: an empty label and the page with its gap. -/
def header (s : Stock) : List (List Char) :=
  [⟨['N'], []⟩, ⟨['q'], [.word s.widthDots]⟩, ⟨['Q'], [.word s.heightDots, .word s.gapDots]⟩].map statementText

/-- The line after the elements: one copy. -/
def footer : List (List Char) := [⟨['P'], [.plain ['1']]⟩].map statementText

end ThermalLabel.Epl

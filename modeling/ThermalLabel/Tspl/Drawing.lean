import ThermalLabel.Emission.Line
import ThermalLabel.Language.Token
import ThermalLabel.Stock

/-!
# Drawing in TSPL

The line that draws an element. TSPL has no bold fonts, and its fonts have five heights.
-/

namespace ThermalLabel.Tspl

/-- The text of a statement: a blank stands between the name and the arguments. -/
def statementText (s : Statement) : List Char :=
  if s.arguments.isEmpty then s.name else s.name ++ ' ' :: argumentsText .bracket s.arguments

/-- The position that begins every statement. -/
def placed (e : Element) : List Argument := [.word e.position.x, .word e.position.y]

/-- The rotation as an argument. -/
def rotationOf (e : Element) : Argument := .plain (e.rotation.token .tspl).toList

/-- What drawing text in a bitmap font changes. -/
def fontNotes (style : TextStyle) : List Approximation :=
  let font := tsplFont style.size
  noteIf (font.height ≠ style.size) (.fontSize style.size font) ++ noteIf style.bold (.bold .tspl)

/-- The argument for an alignment other than left. -/
def alignmentArguments : Alignment → List Argument
  | .left => []
  | .center => [.plain ['2']]
  | .right => [.plain ['3']]

/-- The content as the last argument. -/
def dataOf (e : Element) : Argument := .quoted (oneLine e.content.toList)

/-- The statement that draws text. -/
def textStatement (e : Element) (style : TextStyle) : Statement :=
  ⟨"TEXT".toList, placed e ++
    [.quoted (decimal (tsplFont style.size).index), rotationOf e, .plain ['1'], .plain ['1']] ++
    alignmentArguments style.alignment ++ [dataOf e]⟩

/-- The statement that draws a barcode. -/
def barcodeStatement (e : Element) (style : BarcodeStyle) : Statement :=
  ⟨"BARCODE".toList, placed e ++ [.quoted (style.symbology.token .tspl).toList, .word style.moduleHeight.dots,
    .plain (if style.showText then ['1'] else ['0']), rotationOf e, .word style.moduleWidth.dots,
    .word (wideBar style.symbology style.moduleWidth), dataOf e]⟩

/-- The statement that draws a QR code. -/
def qrStatement (e : Element) (style : QrStyle) : Statement :=
  ⟨"QRCODE".toList, placed e ++ [.plain [style.errorCorrection.letter], .word style.moduleSize.dots, .plain ['A'],
    rotationOf e, dataOf e]⟩

/-- The statement that draws a box or line. -/
def graphicStatement (e : Element) (stroke : Stroke) : Statement :=
  match Shape.of e.size stroke.thickness.dots with
  | .box =>
    let corner := farCorner e.position e.size
    ⟨"BOX".toList, placed e ++ [.word corner.x, .word corner.y, .word stroke.thickness.dots]⟩
  | .line =>
    let drawn := solidExtent e.size stroke
    ⟨"BAR".toList, placed e ++ [.word drawn.width, .word drawn.height]⟩

/-- The statement of an element, and what it approximates. -/
def statement (e : Element) : Except Unsupported (Statement × List Approximation) :=
  let controls := oneLineNotes e.content.toList
  match e.kind with
  | .text style | .price style => .ok (textStatement e style, fontNotes style ++ controls)
  | .barcode style => .ok (barcodeStatement e style, controls)
  | .qrCode style => .ok (qrStatement e style, controls)
  | .image => .error .image
  | .box stroke => .ok (graphicStatement e stroke, shapeNotes .box e.size stroke)
  | .line stroke => .ok (graphicStatement e stroke, shapeNotes .line e.size stroke)

/-- The line of an element. -/
def draw (e : Element) : Except Unsupported Drawn :=
  (statement e).map fun (s, notes) => ⟨statementText s, notes⟩

/-- A length with its unit. -/
def dotsArgument (w : UInt32) : Argument := .plain (wordDigits w ++ " dot".toList)

/-- The lines in front of the elements: page, gap, direction and an empty label. -/
def header (s : Stock) : List (List Char) :=
  [⟨"SIZE".toList, [dotsArgument s.widthDots, dotsArgument s.heightDots]⟩,
    ⟨"GAP".toList, [dotsArgument s.gapDots, dotsArgument 0]⟩, ⟨"DIRECTION".toList, [.plain ['0']]⟩,
    ⟨"CLS".toList, []⟩].map statementText

/-- The line after the elements: one copy. -/
def footer : List (List Char) := [⟨"PRINT".toList, [.plain ['1'], .plain ['1']]⟩].map statementText

end ThermalLabel.Tspl

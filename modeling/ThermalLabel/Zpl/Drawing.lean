import ThermalLabel.Emission.Line
import ThermalLabel.HexEscape
import ThermalLabel.Stock
import ThermalLabel.Zpl.Command

/-!
# Drawing in ZPL

The commands that draw an element: its origin, attributes, data and a field separator, all on one line. Content that
plain field data cannot hold is written with hex escapes.
-/

namespace ThermalLabel.Zpl

/-- A body of comma-separated arguments. -/
def body (args : List (List Char)) : List Char := Text.joinWith ',' args

/-- The command that sets the position. -/
def originCommand (p : Point) : Command := .caret "FO" (body [wordDigits p.x, wordDigits p.y])

/-- The command that ends a field. -/
def separatorCommand : Command := .caret "FS" []

/-- The commands that hold the data of a field. -/
def dataCommands (content : List Char) : List Command :=
  if HexEscape.needed content then
    [.caret "FH" [HexEscape.byteChar HexEscape.defaultIndicator],
      .caret "FD" (HexEscape.encode HexEscape.defaultIndicator content)]
  else [.caret "FD" content]

/-- A letter or digit of ASCII. -/
def isFontChar (c : Char) : Bool := c.isAlphanum

/-- The name of a font in a program: a letter or digit, in upper case; any other font is replaced by font 0. -/
def fontName (font : String) : Char :=
  match Text.trim font.toList with
  | [c] => if isFontChar c then c.toUpper else '0'
  | _ => '0'

/-- The command that sets the font of a field. -/
def fontCommand (style : TextStyle) (r : Rotation) : Command :=
  .caret "A" (fontName style.font ::
    body [(r.token .zpl).toList, wordDigits style.size.dots, wordDigits (characterWidth style)])

/-- The letter of an alignment other than left. -/
def justification? : Alignment → Option Char
  | .left => none
  | .center => some 'C'
  | .right => some 'R'

/-- The command that aligns text in the width of its element, if it needs one and has a width. -/
def blockCommands (style : TextStyle) (width : UInt32) : List Command :=
  match justification? style.alignment with
  | none => []
  | some j => if width = 0 then [] else [.caret "FB" (body [wordDigits width, ['1'], ['0'], [j], ['0']])]

/-- What aligning text changes. -/
def blockNotes (style : TextStyle) (width : UInt32) : List Approximation :=
  noteIf (style.alignment ≠ .left && width = 0) .widthless

/-- The arguments of a barcode command. -/
def barcodeArguments (style : BarcodeStyle) (r : Rotation) : List (List Char) :=
  let rotation := (r.token .zpl).toList
  let height := wordDigits style.moduleHeight.dots
  let text := if style.showText then ['Y'] else ['N']
  match style.symbology with
  | .code39 => [rotation, ['N'], height, text, ['N']]
  | .ean13 | .ean8 => [rotation, height, text, ['N']]
  | .code128 | .itf => [rotation, height, text, ['N'], ['N']]
  | .upcA | .upcE => [rotation, height, text, ['N'], ['Y']]

/-- The commands that make a field a barcode. -/
def barcodeCommands (style : BarcodeStyle) (r : Rotation) : List Command :=
  [.caret "BY" (wordDigits style.moduleWidth.dots),
    .caret (style.symbology.token .zpl) (body (barcodeArguments style r))]

/-- The command that makes a field a QR code. -/
def qrCommand (style : QrStyle) : Command :=
  .caret "BQ" (body [['N'], ['2'], wordDigits style.moduleSize.dots, [style.errorCorrection.letter]])

/-- The data of a QR code: its level and automatic mode in front of the content. -/
def qrData (style : QrStyle) (content : List Char) : List Char := style.errorCorrection.letter :: 'A' :: ',' :: content

/-- The command that draws a box or line. -/
def graphicCommand (size : Extent) (stroke : Stroke) : Command :=
  let thickness := wordDigits stroke.thickness.dots
  match Shape.of size stroke.thickness.dots with
  | .box => .caret "GB" (body [wordDigits size.width, wordDigits size.height, thickness, ['B'], ['0']])
  | .line =>
    let drawn := solidExtent size stroke
    .caret "GB" (body [wordDigits drawn.width, wordDigits drawn.height, thickness])

/-- The commands between the origin of an element and its field separator, and what they approximate. -/
def fieldCommands (e : Element) : Except Unsupported (List Command × List Approximation) :=
  let content := e.content.toList
  match e.kind with
  | .text style | .price style =>
    .ok (fontCommand style e.rotation :: blockCommands style e.size.width ++ dataCommands content,
      blockNotes style e.size.width)
  | .barcode style => .ok (barcodeCommands style e.rotation ++ dataCommands content, [])
  | .qrCode style =>
    .ok (qrCommand style :: dataCommands (qrData style content), noteIf (e.rotation ≠ .deg0) (.upright e.rotation))
  | .image => .error .image
  | .box stroke => .ok ([graphicCommand e.size stroke], shapeNotes .box e.size stroke)
  | .line stroke => .ok ([graphicCommand e.size stroke], shapeNotes .line e.size stroke)

/-- The text of commands on one line. -/
def commandsText (cs : List Command) : List Char := cs.flatMap Command.text

/-- The line of an element. -/
def draw (e : Element) : Except Unsupported Drawn :=
  (fieldCommands e).map fun (cs, notes) =>
    ⟨commandsText (originCommand e.position :: cs ++ [separatorCommand]), notes⟩

/-- The lines in front of the elements: start of format, encoding, page and home position. -/
def header (s : Stock) : List (List Char) :=
  [Command.caret "XA" [], .caret "CI" ['2', '8'], .caret "PW" (wordDigits s.widthDots),
    .caret "LL" (wordDigits s.heightDots), .caret "LH" (body [['0'], ['0']])].map Command.text

/-- The lines after the elements: one copy, end of format. -/
def footer : List (List Char) := [Command.caret "PQ" ['1'], .caret "XZ" []].map Command.text

end ThermalLabel.Zpl

import ThermalLabel.Number.Word
import ThermalLabel.Text.Basic
import ThermalLabel.Text.Quoted

/-!
# Label elements

An element is one thing drawn on a label: text, a price, a barcode, a QR code, an image, a box or a line. It has a place
and size in dots, a rotation, a stacking order and a content. Values that a printer could not draw do not exist: a font
size, a bar height or width and a stroke are positive, and a QR module has from 1 to 10 dots.

* `InvalidValue` says why a value is refused; the checked constructors are `PositiveDots.ofWord`, `ModuleSize.ofWord`,
  `Rotation.ofDegrees` and `ErrorCorrection.ofText`.
* `stacked` lists elements by stacking order and keeps the list order among equals.
-/

namespace ThermalLabel

/-- An attribute whose value must not be zero. -/
inductive Dimension where
  | moduleHeight
  | moduleWidth
  | thickness
  deriving DecidableEq, Repr

/-- The name of the attribute. -/
def Dimension.name : Dimension → String
  | .moduleHeight => "module_height"
  | .moduleWidth => "module_width"
  | .thickness => "thickness"

/-- Why an element or a design is refused. -/
inductive InvalidValue where
  | rotation (degrees : UInt32)
  | zeroFontSize
  | zeroDimension (d : Dimension)
  | errorCorrection (text : String)
  | moduleSize (dots : UInt32)
  | duplicateId (id : UInt32)
  | unknownId (id : UInt32)
  deriving DecidableEq, Repr

/-- The text of the error. -/
def InvalidValue.message : InvalidValue → String
  | .rotation d => s!"rotation must be 0, 90, 180 or 270 degrees, got {d}"
  | .zeroFontSize => "font size must be greater than zero"
  | .zeroDimension d => d.name ++ " must be greater than zero"
  | .errorCorrection t => "error correction level must be one of L, M, Q, H, got " ++ Text.quoted t
  | .moduleSize d => s!"QR module size must be between 1 and 10, got {d}"
  | .duplicateId id => s!"duplicate element id {id}"
  | .unknownId id => s!"no element with id {id}"

/-! ## Geometry -/

/-- A place on the label, in dots from its upper left corner. -/
structure Point where
  x : UInt32 := 0
  y : UInt32 := 0
  deriving DecidableEq, Repr

/-- A width and a height in dots. -/
structure Extent where
  width : UInt32 := 0
  height : UInt32 := 0
  deriving DecidableEq, Repr

/-- A number of dots other than zero. -/
structure PositiveDots where
  dots : UInt32
  ne_zero : dots ≠ 0
  deriving DecidableEq, Repr

namespace PositiveDots

/-- The least positive number of dots. -/
def one : PositiveDots := ⟨1, by decide⟩

/-- The number of dots, unless it is zero. -/
def ofWord? (w : UInt32) : Option PositiveDots :=
  if h : w ≠ 0 then some ⟨w, h⟩ else none

/-- The number of dots; zero is refused for the given reason. -/
def ofWord (reason : InvalidValue) (w : UInt32) : Except InvalidValue PositiveDots :=
  match ofWord? w with
  | some d => .ok d
  | none => .error reason

/-- The product with a positive factor, or the largest word. -/
def scale (d factor : PositiveDots) : PositiveDots :=
  (ofWord? (mulWord d.dots factor.dots)).getD one

/-- The word, or one dot for zero. -/
def atLeastOne (w : UInt32) : PositiveDots := (ofWord? w).getD one

instance : Inhabited PositiveDots := ⟨one⟩

end PositiveDots

/-- A clockwise rotation by right angles. -/
inductive Rotation where
  | deg0
  | deg90
  | deg180
  | deg270
  deriving DecidableEq, Repr, Inhabited

namespace Rotation

/-- Every rotation, clockwise. -/
def all : List Rotation := [.deg0, .deg90, .deg180, .deg270]

/-- The angle in degrees. -/
def degrees : Rotation → UInt32
  | .deg0 => 0
  | .deg90 => 90
  | .deg180 => 180
  | .deg270 => 270

/-- The rotation by an angle in degrees. -/
def ofDegrees (d : UInt32) : Except InvalidValue Rotation :=
  match all.find? fun r => r.degrees = d with
  | some r => .ok r
  | none => .error (.rotation d)

end Rotation

/-! ## Text -/

/-- The side to which text is set within its element. -/
inductive Alignment where
  | left
  | center
  | right
  deriving DecidableEq, Repr, Inhabited

/-- The name of an alignment in documents. -/
def Alignment.name : Alignment → String
  | .left => "left"
  | .center => "center"
  | .right => "right"

/-- Every alignment. -/
def Alignment.all : List Alignment := [.left, .center, .right]

/-- How text is set. The size is the height of a character in dots. -/
structure TextStyle where
  font : String := "0"
  size : PositiveDots
  bold : Bool := false
  alignment : Alignment := .left
  deriving DecidableEq, Repr

/-! ## Barcodes -/

/-- The linear barcodes that all three languages have. -/
inductive Symbology where
  | ean13
  | ean8
  | code128
  | code39
  | upcA
  | upcE
  | itf
  deriving DecidableEq, Repr, Inhabited

namespace Symbology

/-- Every symbology. -/
def all : List Symbology := [.ean13, .ean8, .code128, .code39, .upcA, .upcE, .itf]

/-- The name in documents. -/
def name : Symbology → String
  | .ean13 => "ean13"
  | .ean8 => "ean8"
  | .code128 => "code128"
  | .code39 => "code39"
  | .upcA => "upc_a"
  | .upcE => "upc_e"
  | .itf => "itf"

/-- The name for display. -/
def displayName : Symbology → String
  | .ean13 => "EAN-13"
  | .ean8 => "EAN-8"
  | .code128 => "Code 128"
  | .code39 => "Code 39"
  | .upcA => "UPC-A"
  | .upcE => "UPC-E"
  | .itf => "ITF"

/-- Do wide bars have a width of their own? -/
def hasWideBars : Symbology → Bool
  | .code39 | .itf => true
  | _ => false

/-- The symbology with a name in documents. -/
def ofName? (s : String) : Option Symbology := all.find? fun x => x.name = s

end Symbology

/-- How a barcode is drawn: bar height, width of a narrow bar, and whether its text is printed below. -/
structure BarcodeStyle where
  symbology : Symbology
  moduleHeight : PositiveDots
  moduleWidth : PositiveDots := .atLeastOne 2
  showText : Bool := true
  deriving DecidableEq, Repr

/-! ## QR codes -/

/-- How much of a QR code may be damaged. -/
inductive ErrorCorrection where
  | low
  | medium
  | quartile
  | high
  deriving DecidableEq, Repr, Inhabited

namespace ErrorCorrection

/-- Every level. -/
def all : List ErrorCorrection := [.low, .medium, .quartile, .high]

/-- The letter of a level. -/
def letter : ErrorCorrection → Char
  | .low => 'L'
  | .medium => 'M'
  | .quartile => 'Q'
  | .high => 'H'

/-- The level whose letter a text is, up to case and blanks at the ends. -/
def ofText (t : String) : Except InvalidValue ErrorCorrection :=
  match all.find? fun l => Text.upper (Text.trim t.toList) = [l.letter] with
  | some l => .ok l
  | none => .error (.errorCorrection t)

end ErrorCorrection

/-- The width of a QR module, from 1 to 10 dots. -/
structure ModuleSize where
  dots : UInt32
  in_range : 1 ≤ dots ∧ dots ≤ 10
  deriving DecidableEq, Repr

/-- The module size of a number of dots. -/
def ModuleSize.ofWord (w : UInt32) : Except InvalidValue ModuleSize :=
  if h : 1 ≤ w ∧ w ≤ 10 then .ok ⟨w, h⟩ else .error (.moduleSize w)

instance : Inhabited ModuleSize := ⟨1, by decide⟩

/-- How a QR code is drawn. -/
structure QrStyle where
  moduleSize : ModuleSize
  errorCorrection : ErrorCorrection := .medium
  deriving DecidableEq, Repr

/-! ## Elements -/

/-- The line with which a box or a line is drawn. -/
structure Stroke where
  thickness : PositiveDots
  deriving DecidableEq, Repr

/-- What an element is, with the attributes of its kind. -/
inductive ElementKind where
  | text (style : TextStyle)
  /-- A price, drawn like text. -/
  | price (style : TextStyle)
  | barcode (style : BarcodeStyle)
  | qrCode (style : QrStyle)
  /-- A picture, which no language can draw. -/
  | image
  | box (stroke : Stroke)
  | line (stroke : Stroke)
  deriving DecidableEq, Repr

/-- The name of a kind. -/
def ElementKind.name : ElementKind → String
  | .text _ => "text"
  | .price _ => "price"
  | .barcode _ => "barcode"
  | .qrCode _ => "qr_code"
  | .image => "image"
  | .box _ => "box"
  | .line _ => "line"

/-- One thing drawn on a label. Its content is the text, or the value that the code encodes. -/
structure Element where
  id : UInt32
  position : Point
  size : Extent := {}
  rotation : Rotation := .deg0
  zOrder : Int32 := 0
  content : String := ""
  kind : ElementKind
  deriving DecidableEq, Repr

/-- The elements by stacking order; elements of equal order keep their places. -/
def stacked (es : List Element) : List Element :=
  es.mergeSort fun a b => a.zOrder ≤ b.zOrder

end ThermalLabel

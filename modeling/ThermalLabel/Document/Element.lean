import ThermalLabel.Document.Reader

/-!
# Element documents

Elements in documents: an object with the attributes of the element, in which `kind` holds the kind's own attributes and
names the kind in `type`. The value of `kind` is read as a whole before any attribute in it is looked at.

* `Document.element` reads an element, `Element.document` writes one.
-/

namespace ThermalLabel

namespace Document

/-! ## Attributes -/

/-- A place. -/
def pointRecord : Record Point := ⟨"Point", {}, [
  ⟨"x", .required, fun v p => (word v).map fun x => { p with x }⟩,
  ⟨"y", .required, fun v p => (word v).map fun y => { p with y }⟩]⟩

/-- A size. -/
def extentRecord : Record Extent := ⟨"Extent", {}, [
  ⟨"width", .required, fun v e => (word v).map fun width => { e with width }⟩,
  ⟨"height", .required, fun v e => (word v).map fun height => { e with height }⟩]⟩

/-- A font size. -/
def fontSize (v : Json) : Checked PositiveDots := do valid (PositiveDots.ofWord .zeroFontSize (← word v))

/-- A style of text. -/
def textRecord : Record TextStyle := ⟨"TextStyle", { size := .one }, [
  ⟨"font", .optional, fun v s => (text v).map fun font => { s with font }⟩,
  ⟨"size", .required, fun v s => (fontSize v).map fun size => { s with size }⟩,
  ⟨"bold", .optional, fun v s => (boolean v).map fun bold => { s with bold }⟩,
  ⟨"alignment", .optional, fun v s =>
    (bufferedVariant Alignment.all Alignment.name v).map fun alignment => { s with alignment }⟩]⟩

/-- A style of barcode. -/
def barcodeRecord : Record BarcodeStyle := ⟨"BarcodeStyle", { symbology := .ean13, moduleHeight := .one }, [
  ⟨"symbology", .required, fun v s =>
    (bufferedVariant Symbology.all Symbology.name v).map fun symbology => { s with symbology }⟩,
  ⟨"module_height", .required, fun v s => (positive v).map fun moduleHeight => { s with moduleHeight }⟩,
  ⟨"module_width", .optional, fun v s => (positive v).map fun moduleWidth => { s with moduleWidth }⟩,
  ⟨"show_text", .optional, fun v s => (boolean v).map fun showText => { s with showText }⟩]⟩

/-- A module size. -/
def moduleSize (v : Json) : Checked ModuleSize := do valid (ModuleSize.ofWord (← word v))

/-- An error correction level. -/
def errorCorrection (v : Json) : Checked ErrorCorrection := do valid (ErrorCorrection.ofText (← text v))

/-- A style of QR code. -/
def qrRecord : Record QrStyle := ⟨"QrStyle", { moduleSize := default }, [
  ⟨"module_size", .required, fun v s => (moduleSize v).map fun moduleSize => { s with moduleSize }⟩,
  ⟨"error_correction", .optional, fun v s =>
    (errorCorrection v).map fun errorCorrection => { s with errorCorrection }⟩]⟩

/-- A stroke. -/
def strokeRecord : Record Stroke := ⟨"Stroke", ⟨.one⟩, [
  ⟨"thickness", .required, fun v s => (positive v).map fun thickness => { s with thickness }⟩]⟩

/-- A rotation. -/
def rotation (v : Json) : Checked Rotation := do valid (Rotation.ofDegrees (← word v))

/-! ## Kinds -/

/-- The names of the kinds. -/
inductive KindTag where
  | text
  | price
  | barcode
  | qrCode
  | image
  | box
  | line
  deriving DecidableEq, Repr

/-- Every kind. -/
def KindTag.all : List KindTag := [.text, .price, .barcode, .qrCode, .image, .box, .line]

/-- The name of a kind. -/
def KindTag.name : KindTag → String
  | .text => "text"
  | .price => "price"
  | .barcode => "barcode"
  | .qrCode => "qr_code"
  | .image => "image"
  | .box => "box"
  | .line => "line"

/-- The attributes of an image: an object has none that matter, an array none at all. -/
def noAttributes (v : Json) : Checked Unit :=
  match v with
  | .array [] | .object _ => .ok ()
  | .array items => fault (.wrongLength items.length (elementCount 0 ++ " in sequence"))
  | _ => mismatch "unit" v

/-- The kind with a name and the value that holds its attributes. -/
def kindOf (tag : KindTag) (v : Json) : Checked ElementKind :=
  match tag with
  | .text => (textRecord.read .buffered v).map .text
  | .price => (textRecord.read .buffered v).map .price
  | .barcode => (barcodeRecord.read .buffered v).map .barcode
  | .qrCode => (qrRecord.read .buffered v).map .qrCode
  | .image => (noAttributes v).map fun _ => .image
  | .box => (strokeRecord.read .buffered v).map .box
  | .line => (strokeRecord.read .buffered v).map .line

/-- The name of a kind as a value. -/
def kindTag (v : Json) : Checked KindTag :=
  match v with
  | .string s => variant KindTag.all KindTag.name s
  | _ => mismatch "variant identifier" v

/-- The name of the member that tells the kind. -/
def tagKey : String := "type"

/-- The tag among members and the other members, given the tag met before; other values must be storable. -/
def splitTag (room : Nat) (tag : Option KindTag) :
    List (Option String × Json) → Checked (KindTag × List (Option String × Json))
  | [] =>
    match tag with
    | some t => .ok (t, [])
    | none => fault (.missingField tagKey)
  | (none, _) :: _ => malformed
  | (some k, v) :: ms =>
    if k = tagKey then
      if tag.isSome then fault (.duplicateField tagKey)
      else do
        let t ← kindTag v
        splitTag room (some t) ms
    else if isStorable room v then do
      let (t, rest) ← splitTag room tag ms
      return (t, (some k, v) :: rest)
    else malformed

/-- Containers may be nested to this depth where they are kept to be read later. -/
def maxDepth : Nat := 127

/-- A kind, inside `depth` containers. -/
def kind (depth : Nat) (v : Json) : Checked ElementKind :=
  let room := maxDepth - (depth + 1)
  match v with
  | .object members => do
    let (tag, rest) ← splitTag room none members
    kindOf tag (.object rest)
  | .array [] => fault (.missingField tagKey)
  | .array (t :: items) => do
    let tag ← kindTag t
    if areStorable room items then kindOf tag (.array items) else malformed
  | _ => mismatch "internally tagged enum ElementKind" v

/-! ## Elements -/

/-- An element, inside `depth` containers. -/
def elementRecord (depth : Nat) : Record Element :=
  ⟨"LabelElement", { id := 0, position := {}, kind := .image }, [
    ⟨"id", .required, fun v e => (word v).map fun id => { e with id }⟩,
    ⟨"position", .required, fun v e => (pointRecord.read .direct v).map fun position => { e with position }⟩,
    ⟨"size", .optional, fun v e => (extentRecord.read .direct v).map fun size => { e with size }⟩,
    ⟨"rotation", .optional, fun v e => (Document.rotation v).map fun rotation => { e with rotation }⟩,
    ⟨"z_order", .optional, fun v e => (stacking v).map fun zOrder => { e with zOrder }⟩,
    ⟨"content", .optional, fun v e => (text v).map fun content => { e with content }⟩,
    ⟨"kind", .required, fun v e => (Document.kind (depth + 1) v).map fun kind => { e with kind }⟩]⟩

/-- An element. -/
def element (depth : Nat) (v : Json) : Checked Element := (elementRecord depth).read .direct v

end Document

/-! ## Writing -/

/-- A place in a document. -/
def Point.document (p : Point) : Json := .ofMembers [("x", .ofWord p.x), ("y", .ofWord p.y)]

/-- A size in a document. -/
def Extent.document (e : Extent) : Json := .ofMembers [("width", .ofWord e.width), ("height", .ofWord e.height)]

/-- The members of a style of text. -/
def TextStyle.members (s : TextStyle) : List (String × Json) :=
  [("font", .string s.font), ("size", .ofWord s.size.dots), ("bold", .bool s.bold),
    ("alignment", .string s.alignment.name)]

/-- The members of a style of barcode. -/
def BarcodeStyle.members (s : BarcodeStyle) : List (String × Json) :=
  [("symbology", .string s.symbology.name), ("module_height", .ofWord s.moduleHeight.dots),
    ("module_width", .ofWord s.moduleWidth.dots), ("show_text", .bool s.showText)]

/-- The members of a style of QR code. -/
def QrStyle.members (s : QrStyle) : List (String × Json) :=
  [("module_size", .ofWord s.moduleSize.dots), ("error_correction", .ofChars [s.errorCorrection.letter])]

/-- The members of a stroke. -/
def Stroke.members (s : Stroke) : List (String × Json) := [("thickness", .ofWord s.thickness.dots)]

/-- The members of a kind besides its name. -/
def ElementKind.members : ElementKind → List (String × Json)
  | .text s | .price s => s.members
  | .barcode s => s.members
  | .qrCode s => s.members
  | .image => []
  | .box s | .line s => s.members

/-- A kind in a document, its name first. -/
def ElementKind.document (k : ElementKind) : Json := .ofMembers ((Document.tagKey, .string k.name) :: k.members)

/-- An element in a document. -/
def Element.document (e : Element) : Json := .ofMembers [
  ("id", .ofWord e.id), ("position", e.position.document), ("size", e.size.document),
  ("rotation", .ofWord e.rotation.degrees), ("z_order", .ofInt e.zOrder.toInt), ("content", .string e.content),
  ("kind", e.kind.document)]

end ThermalLabel

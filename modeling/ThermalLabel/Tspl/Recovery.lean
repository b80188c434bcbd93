import ThermalLabel.Line.Drawing
import ThermalLabel.Line.Source

/-!
# Recovering a TSPL program

A line is the name of a command, in letters of any case, and its arguments after a blank. The two forms of a text or
barcode command, with and without an alignment, are told apart by their number of arguments.
-/

namespace ThermalLabel.Tspl

/-- The commands without effect on elements. -/
def setupNames : List String :=
  ["GAP", "DIRECTION", "CLS", "PRINT", "SPEED", "DENSITY", "REFERENCE", "OFFSET", "SET", "CODEPAGE", "SHIFT"]

/-- The name at the beginning of a line, in upper case, and what follows the blank after it. -/
def splitName (line : List Char) : List Char × List Char :=
  (Text.upper (line.takeWhile (!Text.isBlank ·)), (line.dropWhile (!Text.isBlank ·)).drop 1)

/-- The rotation at an index. -/
def rotationArg (a : Arguments) (index : Nat) : Except Cause Rotation :=
  rotationAt .tspl a index "expected 0, 90, 180 or 270"

/-- The text before a unit, if it ends with the unit. -/
def stripUnit (unit text : List Char) : Option (List Char) :=
  (Text.stripLead unit.reverse text.reverse).map List.reverse

/-- A length at an index: a number of dots, or `none` in another unit. -/
def dotsArg (a : Arguments) (index : Nat) (field : String) : Except Cause (Option UInt32) :=
  match a.get? index with
  | none => .error (a.malformed field [] "missing value")
  | some v =>
    match stripUnit ['d', 'o', 't'] v with
    | none => .ok none
    | some n =>
      match readWord (Text.trim n) with
      | some w => .ok (some w)
      | none => .error (a.malformed field v "expected a number of dots")

/-- The size of the page. Lengths in another unit than dots declare no page. -/
def size (a : Arguments) : Except Cause (List Step) := do
  let width ← dotsArg a 0 "width"
  let height ← dotsArg a 1 "height"
  match width, height with
  | some _, some _ => return [.page width height]
  | _, _ => return [.setup]

/-- The alignment at the seventh argument, left if absent. -/
def alignmentArg (a : Arguments) : Except Cause Alignment :=
  match a.get? 6 with
  | none => .ok .left
  | some v =>
    if v = ['0'] ∨ v = ['1'] then .ok .left
    else if v = ['2'] then .ok .center
    else if v = ['3'] then .ok .right
    else .error (a.malformed "alignment" v "expected 1, 2 or 3")

/-- The alignment of text and the index of its data, by the number of arguments. -/
def textForm (a : Arguments) : Except Cause (Alignment × Nat) :=
  if a.values.length = 7 then .ok (.left, 6)
  else if a.values.length = 8 then (alignmentArg a).map (·, 7)
  else .error (a.malformed "data" [] "expected 7 or 8 arguments")

/-- The bitmap font at the third argument. -/
def fontArg (a : Arguments) : Except Cause BitmapFont :=
  let font := (a.get? 2).getD []
  match (readBounded 255 font).bind Language.tspl.bitmapFont? with
  | some f => .ok f
  | none => .error (a.malformed "font" font "expected bitmap font 1 to 5")

/-- Text: position, font, rotation, two magnifications, perhaps an alignment, and data. -/
def text (a : Arguments) : Except Cause (List Step) := do
  let (alignment, index) ← textForm a
  let place ← a.place
  let font ← fontArg a
  let rotation ← rotationArg a 3
  let factor ← a.wordOr 5 "y_multiplier" 1
  return drawAt place (bitmapText (magnified font factor) alignment rotation (a.raw index))

/--
A barcode: position, type, height, whether its text is printed, rotation, narrow and wide bar, perhaps an alignment,
and data.
-/
def barcode (a : Arguments) : Except Cause (List Step) := do
  if a.values.length ≠ 9 ∧ a.values.length ≠ 10 then throw (a.malformed "data" [] "expected 9 or 10 arguments")
  let place ← a.place
  let symbology ← symbologyAt .tspl a 2
  let height ← a.word 3 "height"
  let readable ← a.wordOr 4 "readable" 0
  let rotation ← rotationArg a 5
  let narrow ← a.word 6 "narrow"
  let content ← barcodeOf a symbology height narrow (readable != 0) rotation (a.raw (a.values.length - 1))
  return drawAt place content

/-- The error correction level at the third argument. -/
def levelArg (a : Arguments) : Except Cause ErrorCorrection :=
  let level := (a.get? 2).getD []
  match ErrorCorrection.ofText (String.ofList level) with
  | .ok l => .ok l
  | .error e => .error (a.malformed "ecc" level e.message)

/-- A QR code: position, level, module size, mode, rotation, perhaps more, and data. -/
def qrCode (a : Arguments) : Except Cause (List Step) := do
  if a.values.length < 7 then throw (a.malformed "data" [] "expected at least 7 arguments")
  let place ← a.place
  let level ← levelArg a
  let cell ← a.word 3 "cell_width"
  let rotation ← rotationArg a 5
  match ModuleSize.ofWord cell with
  | .error e => throw (a.malformed "cell_width" (wordDigits cell) e.message)
  | .ok m =>
    return drawAt place
      (.field (.qrCode ⟨m, level⟩) {} rotation (String.ofList (a.raw (a.values.length - 1))))

/-- A box: two corners and the stroke. -/
def box (a : Arguments) : Except Cause (List Step) := do
  let place ← a.place
  let right ← a.word 2 "x_end"
  let bottom ← a.word 3 "y_end"
  let stroke ← strokeAt a 4
  return drawAt place (frame place right bottom stroke)

/-- The steps of a command by its name. -/
def perform (line : List Char) (a : Arguments) : Except Cause (List Step) :=
  let name := a.name
  if name = "TEXT" then text a
  else if name = "BARCODE" then barcode a
  else if name = "QRCODE" then qrCode a
  else if name = "BOX" then box a
  else if name = "BAR" then solidBar a
  else if name = "SIZE" then size a
  else if name ∈ setupNames then .ok [.setup]
  else .error (.unrecognized (String.ofList line))

/-- The steps of a line. -/
def interpret (line : List Char) : Except Cause (List Step) := do
  let (name, rest) := splitName line
  let a ← argumentsIn .bracket name rest
  perform line a

/-- What a program draws. -/
def recover (program : List Char) : Recovered := recoverLines .tspl interpret program

end ThermalLabel.Tspl

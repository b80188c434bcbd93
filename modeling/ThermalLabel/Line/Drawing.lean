import ThermalLabel.Language.Font
import ThermalLabel.Language.Token
import ThermalLabel.Line.Argument
import ThermalLabel.Recovery.Arguments
import ThermalLabel.Recovery.Step

/-!
# Drawing commands of the line languages

EPL2 and TSPL draw the same things with arguments in different orders. Every drawing command holds its own position, so
it is two steps: the position and the content.
-/

namespace ThermalLabel

/-- A drawing command: the content at a place. -/
def drawAt (place : Point) (c : Content) : List Step := [.position place, .content c]

/-- The arguments of a command in the text after its name. -/
def argumentsIn (e : QuoteEscape) (command rest : List Char) : Except Cause Arguments :=
  match e.split rest with
  | some values => .ok ⟨command, values⟩
  | none => .error ((⟨command, []⟩ : Arguments).malformed "data" rest "unterminated quoted string")

/-- The rotation at an index, upright if absent. -/
def rotationAt (l : Language) (a : Arguments) (index : Nat) (expected : String) : Except Cause Rotation :=
  match a.get? index with
  | none => .ok .deg0
  | some v =>
    match Rotation.ofToken? l (String.ofList v) with
    | some r => .ok r
    | none => .error (a.malformed "rotation" v expected)

/-- The symbology at an index. -/
def symbologyAt (l : Language) (a : Arguments) (index : Nat) : Except Cause Symbology :=
  let token := (a.get? index).getD []
  match Symbology.ofToken? l (String.ofList token) with
  | some s => .ok s
  | none => .error (a.malformed "type" token "unsupported barcode type")

/-- The stroke at an index. -/
def strokeAt (a : Arguments) (index : Nat) : Except Cause PositiveDots := do
  match PositiveDots.ofWord? (← a.word index "thickness") with
  | some t => return t
  | none => throw (a.malformed "thickness" ['0'] "must be greater than zero")

/-- The characters of a font at a vertical magnification; a factor of zero counts as one. -/
def magnified (f : BitmapFont) (factor : UInt32) : PositiveDots := f.height.scale (PositiveDots.atLeastOne factor)

/-- Text in a bitmap font: neither its font nor its weight is known, only its height. -/
def bitmapText (height : PositiveDots) (alignment : Alignment) (r : Rotation) (data : List Char) : Content :=
  .field (.text { size := height, alignment }) ⟨0, height.dots⟩ r (String.ofList data)

/-- A barcode of bars of a height and a narrow width, neither of them zero. -/
def barcodeOf (a : Arguments) (s : Symbology) (height narrow : UInt32) (showText : Bool) (r : Rotation)
    (data : List Char) : Except Cause Content :=
  match PositiveDots.ofWord (.zeroDimension .moduleHeight) height,
    PositiveDots.ofWord (.zeroDimension .moduleWidth) narrow with
  | .ok h, .ok w => .ok (.field (.barcode ⟨s, h, w, showText⟩) ⟨0, height⟩ r (String.ofList data))
  | .error e, _ => .error (.refused a.name e)
  | .ok _, .error e => .error (.refused a.name e)

/-- A rectangle between two corners; a corner that lies before the first makes a side of zero. -/
def frame (place : Point) (right bottom : UInt32) (stroke : PositiveDots) : Content :=
  .graphic ⟨subWord right place.x, subWord bottom place.y⟩ stroke

/-- A solid bar, whose stroke is its shorter side. -/
def solidBar (a : Arguments) : Except Cause (List Step) := do
  let place ← a.place
  let width ← a.word 2 "width"
  let height ← a.word 3 "height"
  return drawAt place (.graphic ⟨width, height⟩ (PositiveDots.atLeastOne (min width height)))

end ThermalLabel

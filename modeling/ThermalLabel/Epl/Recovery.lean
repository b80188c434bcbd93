import ThermalLabel.Epl.Setup
import ThermalLabel.Line.Drawing
import ThermalLabel.Line.Source

/-!
# Recovering an EPL2 program

A line begins with the name of its command, one letter or one of three names of two; the arguments follow without a
blank. A line that begins with a semicolon is a comment.
-/

namespace ThermalLabel.Epl

/-- The names of two letters. -/
def longNames : List (List Char) := [['L', 'O'], ['J', 'F'], ['J', 'B']]

/-- The name at the beginning of a line, and the rest of the line. -/
def splitName (line : List Char) : List Char × List Char :=
  if line.take 2 ∈ longNames then (line.take 2, line.drop 2) else (line.take 1, line.drop 1)

/-- The rotation at the third argument. -/
def rotationArg (a : Arguments) : Except Cause Rotation := rotationAt .epl a 2 "expected 0, 1, 2 or 3"

/-- Text: position, rotation, font, two magnifications, colour and data. -/
def text (a : Arguments) : Except Cause (List Step) := do
  if a.values.length < 8 then throw (a.malformed "data" [] "expected 8 arguments")
  let place ← a.place
  let rotation ← rotationArg a
  let index ← a.word 3 "font"
  match Language.epl.bitmapFont? index.toNat with
  | none => throw (a.malformed "font" (wordDigits index) "expected font 1 to 5")
  | some font =>
    let factor ← a.wordOr 5 "vertical_multiplier" 1
    return drawAt place (bitmapText (magnified font factor) .left rotation (a.raw 7))

/-- Is the text of a barcode printed? It is if the eighth argument is B. -/
def showTextArg (a : Arguments) : Except Cause Bool :=
  match a.get? 7 with
  | none => .ok false
  | some v =>
    if v = ['B'] ∨ v = ['b'] then .ok true
    else if v = ['N'] ∨ v = ['n'] then .ok false
    else .error (a.malformed "readable" v "expected B or N")

/-- A barcode: position, rotation, type, narrow and wide bar, height, whether its text is printed, and data. -/
def barcode (a : Arguments) : Except Cause (List Step) := do
  if a.values.length < 9 then throw (a.malformed "data" [] "expected 9 arguments")
  let place ← a.place
  let rotation ← rotationArg a
  let symbology ← symbologyAt .epl a 3
  let narrow ← a.word 4 "narrow"
  let height ← a.word 6 "height"
  let showText ← showTextArg a
  let content ← barcodeOf a symbology height narrow showText rotation (a.raw 8)
  return drawAt place content

/-- A box: one corner, stroke, the other corner. -/
def box (a : Arguments) : Except Cause (List Step) := do
  let place ← a.place
  let stroke ← strokeAt a 2
  let right ← a.word 3 "x_end"
  let bottom ← a.word 4 "y_end"
  return drawAt place (frame place right bottom stroke)

/-- The steps of a command by its name. -/
def perform (line rest : List Char) (a : Arguments) : Except Cause (List Step) :=
  match a.command with
  | ['A'] => text a
  | ['B'] => barcode a
  | ['X'] => box a
  | ['L', 'O'] => solidBar a
  | ['q'] => (a.word 0 "width").map fun w => [.page (some w) none]
  | ['Q'] => (a.word 0 "height").map fun h => [.page none (some h)]
  | name => if isSetup name rest then .ok [.setup] else .error (.unrecognized (String.ofList line))

/-- The steps of a line. -/
def interpret (line : List Char) : Except Cause (List Step) :=
  if line.head? = some ';' then .ok [.setup]
  else do
    let (name, rest) := splitName line
    let a ← argumentsIn .backslash name rest
    perform line rest a

/-- What a program draws. -/
def recover (program : List Char) : Recovered := recoverLines .epl interpret program

end ThermalLabel.Epl

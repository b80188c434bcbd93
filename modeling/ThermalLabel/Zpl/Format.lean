import ThermalLabel.Zpl.Command
import ThermalLabel.Language.Font
import ThermalLabel.Recovery.Arguments
import ThermalLabel.Recovery.Step

/-!
# ZPL formats

The state that ZPL commands build up. The attributes of a field last from its first command to the field separator, the
defaults for the rest of the program. A command is obeyed as a whole or not at all: one that is malformed leaves the
state as it was.

* `Format.obey` gives the step that a command is and the state after it.
* `Format.fieldContent` is what field data draws: a barcode or QR code if the field has one, else text.
-/

namespace ThermalLabel.Zpl

/-- What applies to fields that do not say otherwise. -/
structure Defaults where
  font : Char := 'A'
  fontHeight : PositiveDots := .atLeastOne 9
  fontWidth : UInt32 := 5
  rotation : Rotation := .deg0
  moduleWidth : PositiveDots := .atLeastOne 2
  barHeight : PositiveDots := .atLeastOne 10
  deriving DecidableEq, Repr

/-- The font of a field. -/
structure FieldFont where
  font : Char
  rotation : Option Rotation
  height : PositiveDots
  width : UInt32
  deriving DecidableEq, Repr

/-- The code that a field is printed as. -/
inductive FieldSymbol where
  | barcode (style : BarcodeStyle) (rotation : Rotation)
  | qrCode (size : ModuleSize) (level : Option ErrorCorrection)
  deriving DecidableEq, Repr

/-- The attributes of the field begun. -/
structure Field where
  font : Option FieldFont := none
  block : Option (UInt32 × Alignment) := none
  symbol : Option FieldSymbol := none
  indicator : Option UInt8 := none
  deriving DecidableEq, Repr

/-- The state between two commands. -/
structure Format where
  field : Field := {}
  defaults : Defaults := {}
  deriving DecidableEq, Repr

/-! ## Reading arguments -/

/-- The rotation that an argument names. -/
def rotationArg (a : Arguments) (value : List Char) : Except Cause Rotation :=
  match Rotation.ofToken? .zpl (String.ofList value) with
  | some r => .ok r
  | none => .error (a.malformed "orientation" value "expected N, R, I or B")

/-- The rotation at the first argument, if it is not absent. -/
def rotationArg? (a : Arguments) : Except Cause (Option Rotation) :=
  match a.get? 0 with
  | none => .ok none
  | some v => (rotationArg a v).map some

/-- The word at an index; it must not be zero. -/
def positiveArg? (a : Arguments) (index : Nat) (field : String) : Except Cause (Option PositiveDots) := do
  match ← a.word? index field with
  | none => return none
  | some w =>
    match PositiveDots.ofWord? w with
    | some d => return some d
    | none => throw (a.malformed field ['0'] "must be greater than zero")

/-- The word at an index, or `default` if it is absent or zero. -/
def positiveArgOr (a : Arguments) (index : Nat) (field : String) (default : PositiveDots) :
    Except Cause PositiveDots := do
  return ((← a.word? index field).bind PositiveDots.ofWord?).getD default

/-- The alignment at the fourth argument; justified text is set to the left. -/
def alignmentArg (a : Arguments) : Except Cause Alignment :=
  match (a.get? 3).map Text.upper with
  | none => .ok .left
  | some v =>
    if v = ['L'] ∨ v = ['J'] then .ok .left
    else if v = ['C'] then .ok .center
    else if v = ['R'] then .ok .right
    else .error (a.malformed "justification" v "expected L, C, R or J")

/-- Is the text of a barcode printed? It is unless the argument at an index says no. -/
def showTextArg (a : Arguments) (index : Nat) : Except Cause Bool :=
  match (a.get? index).map Text.upper with
  | none => .ok true
  | some v =>
    if v = ['Y'] then .ok true
    else if v = ['N'] then .ok false
    else .error (a.malformed "interpretation_line" v "expected Y or N")

/-- The arguments of a command, or of what follows the font name. -/
def argumentsOf (c : Command) (body : List Char) : Arguments := ⟨c.code, Text.splitOn ',' body⟩

/-! ## Commands that set attributes -/

/-- The indicator of hex escapes: one ASCII character, an underscore if absent. -/
def indicatorArg (a : Arguments) : Except Cause UInt8 :=
  match a.get? 0 with
  | none => .ok HexEscape.defaultIndicator
  | some v =>
    match v with
    | [c] => if c.toNat < 0x80 then .ok (UInt8.ofNat c.toNat)
      else .error (a.malformed "indicator" v "expected one ASCII character")
    | _ => .error (a.malformed "indicator" v "expected one ASCII character")

/-- The defaults after a default font command: a height sets the width too, unless a width is given. -/
def Defaults.withFont (d : Defaults) (a : Arguments) : Except Cause Defaults := do
  let font := (a.get? 0).bind List.head?
  let height ← positiveArg? a 1 "height"
  let width ← a.word? 2 "width"
  let d := { d with font := (font.map Char.toUpper).getD d.font }
  return match height with
    | some h => { d with fontHeight := h, fontWidth := width.getD h.dots }
    | none => { d with fontWidth := width.getD d.fontWidth }

/-- The defaults after a bar defaults command; a bar height of zero changes nothing. -/
def Defaults.withBars (d : Defaults) (a : Arguments) : Except Cause Defaults := do
  let width ← a.word? 0 "module_width"
  let height ← a.word? 2 "height"
  match width with
  | none => return { d with barHeight := (height.bind PositiveDots.ofWord?).getD d.barHeight }
  | some w =>
    match PositiveDots.ofWord? w with
    | none => throw (a.malformed "module_width" ['0'] "must be greater than zero")
    | some m => return { d with moduleWidth := m, barHeight := (height.bind PositiveDots.ofWord?).getD d.barHeight }

/-- The font of a font command: its name, then rotation, height and width after it. -/
def Format.font (f : Format) (c : Command) : Except Cause FieldFont :=
  match c.body with
  | [] => .error ((⟨c.code, []⟩ : Arguments).malformed "font" [] "missing value")
  | name :: rest => do
    let a := argumentsOf c rest
    let rotation ← rotationArg? a
    let height ← positiveArgOr a 1 "height" f.defaults.fontHeight
    let width ← positiveArgOr a 2 "width" height
    return ⟨name.toUpper, rotation, height, width.dots⟩

/-- The barcode of a barcode command. Code 39 has an argument more in front of the height. -/
def Format.barcode (f : Format) (s : Symbology) (a : Arguments) : Except Cause FieldSymbol := do
  let rotation ← rotationArg? a
  let index := if s = .code39 then 2 else 1
  let height ← positiveArgOr a index "height" f.defaults.barHeight
  let showText ← showTextArg a (index + 1)
  return .barcode ⟨s, height, f.defaults.moduleWidth, showText⟩ (rotation.getD f.defaults.rotation)

/-- The module size at the third argument, 2 if absent. -/
def moduleSizeArg (a : Arguments) : Except Cause ModuleSize := do
  let size ← a.wordOr 2 "magnification" 2
  match ModuleSize.ofWord size with
  | .ok m => return m
  | .error e => throw (a.malformed "magnification" (wordDigits size) e.message)

/-- The error correction level at the fourth argument, if it is not absent. -/
def levelArg? (a : Arguments) : Except Cause (Option ErrorCorrection) :=
  match a.get? 3 with
  | none => .ok none
  | some v =>
    match ErrorCorrection.ofText (String.ofList v) with
    | .ok l => .ok (some l)
    | .error e => .error (a.malformed "error_correction" v e.message)

/-- The rectangle of a graphic command: no side is shorter than the stroke, which is at least one dot. -/
def graphicArg (a : Arguments) : Except Cause Content := do
  let thickness := PositiveDots.atLeastOne (← a.wordOr 2 "thickness" 1)
  let width ← a.wordOr 0 "width" thickness.dots
  let height ← a.wordOr 1 "height" thickness.dots
  return .graphic ⟨max width thickness.dots, max height thickness.dots⟩ thickness

/-! ## Field data -/

/-- The data of a field after its hex escapes, with what is wrong with them; then it is taken as written. -/
def Field.decode (field : Field) (data : List Char) : List Char × List HexEscape.Malformed :=
  match field.indicator with
  | none => (data, [])
  | some i =>
    match HexEscape.decode i data with
    | .ok bytes => (Text.decodeLossy bytes, [])
    | .error es => (data, es)

/--
The level and content of QR code data. A letter, `A` or `M`, and a comma in front of the content name the level;
otherwise the level is the declared one.
-/
def splitQrData (declared : Option ErrorCorrection) (data : List Char) : ErrorCorrection × List Char :=
  let plain := (declared.getD .medium, data)
  match data with
  | c :: mode :: ',' :: rest =>
    if c.toNat < 0x80 ∧ (mode = 'A' ∨ mode = 'M') then
      match ErrorCorrection.ofText (String.ofList [c]) with
      | .ok level => (level, rest)
      | .error _ => plain
    else plain
  | _ => plain

/-- What the data of a field draws. Text is bold if its characters are wider than high by a fifth or more. -/
def Format.fieldContent (f : Format) (data : List Char) : Content :=
  match f.field.symbol with
  | some (.barcode style rotation) =>
    .field (.barcode style) ⟨0, style.moduleHeight.dots⟩ rotation (String.ofList data)
  | some (.qrCode size level) =>
    let (level, data) := splitQrData level data
    .field (.qrCode ⟨size, level⟩) {} .deg0 (String.ofList data)
  | none =>
    let d := f.defaults
    let font := f.field.font.getD ⟨d.font, none, d.fontHeight, d.fontWidth⟩
    let (width, alignment) := f.field.block.getD (0, .left)
    let bold := addWord font.height.dots (fifthUp font.height.dots) ≤ font.width
    .field (.text ⟨String.ofList [font.font], font.height, bold, alignment⟩) ⟨width, font.height.dots⟩
      (font.rotation.getD d.rotation) (String.ofList data)

/-! ## Obeying commands -/

/-- What a command does: notes about its data, a step, and the state after it. -/
structure Outcome where
  notes : List Cause := []
  step : Step
  format : Format

/-- The step and state of a command that is neither malformed nor unknown. -/
def Format.perform (f : Format) (c : Command) (v : Verb) : Except Cause Outcome :=
  let a := argumentsOf c c.body
  match v with
  | .origin => do
    let x ← a.wordOr 0 "x" 0
    let y ← a.wordOr 1 "y" 0
    return { step := .position ⟨x, y⟩, format := f }
  | .separator => .ok { step := .setup, format := { f with field := {} } }
  | .data =>
    let (data, malformed) := f.field.decode c.body
    .ok { notes := malformed.map (.undecodable a.name), step := .content (f.fieldContent data), format := f }
  | .comment => .ok { step := .setup, format := f }
  | .hexIndicator => do
    let i ← indicatorArg a
    return { step := .setup, format := { f with field := { f.field with indicator := some i } } }
  | .font => do
    let font ← f.font c
    return { step := .setup, format := { f with field := { f.field with font := some font } } }
  | .defaultFont => do
    let d ← f.defaults.withFont a
    return { step := .setup, format := { f with defaults := d } }
  | .defaultRotation => do
    let r ← rotationArg? a
    let d := { f.defaults with rotation := r.getD f.defaults.rotation }
    return { step := .setup, format := { f with defaults := d } }
  | .block => do
    let width ← a.wordOr 0 "width" 0
    let alignment ← alignmentArg a
    return { step := .setup, format := { f with field := { f.field with block := some (width, alignment) } } }
  | .barDefaults => do
    let d ← f.defaults.withBars a
    return { step := .setup, format := { f with defaults := d } }
  | .barcode s => do
    let symbol ← f.barcode s a
    return { step := .setup, format := { f with field := { f.field with symbol := some symbol } } }
  | .qrCode => do
    let size ← moduleSizeArg a
    let level ← levelArg? a
    return { step := .setup, format := { f with field := { f.field with symbol := some (.qrCode size level) } } }
  | .graphic => do
    let content ← graphicArg a
    return { step := .content content, format := f }
  | .pageWidth => do
    let width ← a.word 0 "width"
    return { step := .page (some width) none, format := f }
  | .pageLength => do
    let length ← a.word 0 "length"
    return { step := .page none (some length), format := f }
  | .setup => .ok { step := .setup, format := f }

/-- The outcome of any command: one that is unknown or malformed is skipped and changes nothing. -/
def Format.obey (f : Format) (c : Command) : Outcome :=
  match Verb.of? c.leader c.head with
  | none => { step := .skip (.unrecognized (String.ofList c.code)), format := f }
  | some v =>
    match f.perform c v with
    | .ok o => o
    | .error cause => { step := .skip cause, format := f }

end ThermalLabel.Zpl

import ThermalLabel.Zpl.Recovery

/-!
# Formats in plain words

The state of the scanner as words of which any might be zero, so that the style of each element has to be validated when
it is made. A command reads its arguments and changes the state on its way; one that fails keeps the changes it has made
until then (`Work`). What a command does follows the order of its checks: arguments, zeros that are refused, changes.

* `WordFormat.textStyle`, `WordFormat.barcodeStyle` and `QrStyle.ofWord` are the validations that a zero would fail.
* `WordFormat.obey` gives the step of a command and the state after it, `WordFormat.events` those of a whole program.
-/

namespace ThermalLabel

/-! ## Validated styles -/

/-- The style of text at a size, which must not be zero. -/
def TextStyle.ofWord (font : String) (size : UInt32) : Except InvalidValue TextStyle :=
  (PositiveDots.ofWord .zeroFontSize size).map fun size => { font, size }

/-- The style of a barcode of a height, which must not be zero. -/
def BarcodeStyle.ofWord (s : Symbology) (height : UInt32) : Except InvalidValue BarcodeStyle :=
  (PositiveDots.ofWord (.zeroDimension .moduleHeight) height).map fun height =>
    { symbology := s, moduleHeight := height }

/-- The style with a width of its narrow bars, which must not be zero. -/
def BarcodeStyle.withModuleWidth (style : BarcodeStyle) (width : UInt32) : Except InvalidValue BarcodeStyle :=
  (PositiveDots.ofWord (.zeroDimension .moduleWidth) width).map fun width => { style with moduleWidth := width }

/-- The style of a QR code with modules of a size in range. -/
def QrStyle.ofWord (size : UInt32) (level : ErrorCorrection) : Except InvalidValue QrStyle :=
  (ModuleSize.ofWord size).map fun size => ⟨size, level⟩

namespace Zpl

/-! ## State -/

/-- What applies to fields that do not say otherwise, in words. -/
structure WordDefaults where
  font : Char := 'A'
  fontHeight : UInt32 := 9
  fontWidth : UInt32 := 5
  rotation : Rotation := .deg0
  moduleWidth : UInt32 := 2
  barHeight : UInt32 := 10
  deriving DecidableEq, Repr

/-- The font of a field, in words. -/
structure WordFont where
  font : Char
  rotation : Option Rotation
  height : UInt32
  width : UInt32
  deriving DecidableEq, Repr

/-- The attributes of the field begun. The style of a barcode has been validated when it was declared. -/
structure WordField where
  font : Option WordFont := none
  block : Option (UInt32 × Alignment) := none
  symbol : Option FieldSymbol := none
  indicator : Option UInt8 := none
  deriving DecidableEq, Repr

/-- The state between two commands, in words. -/
structure WordFormat where
  field : WordField := {}
  defaults : WordDefaults := {}
  deriving DecidableEq, Repr

/-! ## Validation -/

namespace WordFormat

variable (f : WordFormat)

/-- The font of text in the field begun: its own, or the default one. -/
def font : WordFont :=
  f.field.font.getD ⟨f.defaults.font, none, f.defaults.fontHeight, f.defaults.fontWidth⟩

/-- The style of text in the field begun. -/
def textStyle : Except InvalidValue TextStyle := do
  let style ← TextStyle.ofWord (String.ofList [f.font.font]) f.font.height
  let bold := addWord f.font.height (fifthUp f.font.height) ≤ f.font.width
  return { style with bold, alignment := (f.field.block.getD (0, .left)).2 }

/-- The style of a barcode of a height in the field begun. -/
def barcodeStyle (s : Symbology) (height : UInt32) : Except InvalidValue BarcodeStyle := do
  let style ← BarcodeStyle.ofWord s height
  style.withModuleWidth f.defaults.moduleWidth

/-- What the data of the field begun draws, if its style is valid. -/
def content (data : List Char) : Except InvalidValue Content :=
  match f.field.symbol with
  | some (.barcode style rotation) =>
    .ok (.field (.barcode style) ⟨0, style.moduleHeight.dots⟩ rotation (String.ofList data))
  | some (.qrCode size level) => do
    let (level, data) := splitQrData level data
    let style ← QrStyle.ofWord size.dots level
    return .field (.qrCode style) {} .deg0 (String.ofList data)
  | none => do
    let style ← f.textStyle
    let width := (f.field.block.getD (0, .left)).1
    return .field (.text style) ⟨width, f.font.height⟩ (f.font.rotation.getD f.defaults.rotation) (String.ofList data)

end WordFormat

/-! ## Commands -/

/-- A command at work. It changes the state on its way and keeps what it has changed if it fails. -/
abbrev Work (α : Type) : Type := ExceptT Cause (StateM WordFormat) α

/-- Changes an attribute of the field. -/
def setField (change : WordField → WordField) : Work Unit := modify fun f => { f with field := change f.field }

/-- Changes a default. -/
def setDefaults (change : WordDefaults → WordDefaults) : Work Unit :=
  modify fun f => { f with defaults := change f.defaults }

/-- Refuses a zero. -/
def refuseZero (a : Arguments) (field : String) (w? : Option UInt32) : Except Cause Unit :=
  if w? = some 0 then .error (a.malformed field ['0'] "must be greater than zero") else .ok ()

/-- A word that is not zero; zero counts as absent. -/
def positive? (w? : Option UInt32) : Option UInt32 := w?.filter (0 < ·)

/-- The word at an index, or `default` if it is absent or zero. -/
def positiveWordOr (a : Arguments) (index : Nat) (field : String) (default : UInt32) : Except Cause UInt32 :=
  (a.word? index field).map fun w? => (positive? w?).getD default

/-- Sets the default font. A height of zero is refused before anything is set. -/
def setDefaultFont (a : Arguments) : Work Unit := do
  let height ← a.word? 1 "height"
  refuseZero a "height" height
  let width ← a.word? 2 "width"
  if let some font := (a.get? 0).bind List.head? then setDefaults ({ · with font := font.toUpper })
  match height, width with
  | some h, _ => setDefaults ({ · with fontHeight := h, fontWidth := width.getD h })
  | none, some w => setDefaults ({ · with fontWidth := w })
  | none, none => return

/-- Sets the bar defaults. A width of zero is refused, a height of zero sets nothing. -/
def setDefaultBars (a : Arguments) : Work Unit := do
  let width ← a.word? 0 "module_width"
  let height ← a.word? 2 "height"
  refuseZero a "module_width" width
  if let some w := width then setDefaults ({ · with moduleWidth := w })
  if let some h := positive? height then setDefaults ({ · with barHeight := h })

/-- Sets the font of the field. Zeros count as absent. -/
def setFont (c : Command) : Work Unit := do
  match c.body with
  | [] => throw ((⟨c.code, []⟩ : Arguments).malformed "font" [] "missing value")
  | name :: rest =>
    let a := argumentsOf c rest
    let rotation ← rotationArg? a
    let height ← positiveWordOr a 1 "height" (← get).defaults.fontHeight
    let width ← positiveWordOr a 2 "width" height
    setField ({ · with font := some ⟨name.toUpper, rotation, height, width⟩ })

/-- The height of the bars of a barcode: a height of zero counts as absent. -/
def WordFormat.barHeightArg (f : WordFormat) (s : Symbology) (a : Arguments) : Except Cause UInt32 :=
  positiveWordOr a (if s = .code39 then 2 else 1) "height" f.defaults.barHeight

/-- Makes the field a barcode, if its style is valid. -/
def setBarcode (s : Symbology) (a : Arguments) : Work Unit := do
  let rotation ← rotationArg? a
  let height ← (← get).barHeightArg s a
  let showText ← showTextArg a (if s = .code39 then 3 else 2)
  match (← get).barcodeStyle s height with
  | .error e => throw (a.malformed "height" (wordDigits height) e.message)
  | .ok style =>
    let rotation := rotation.getD (← get).defaults.rotation
    setField ({ · with symbol := some (.barcode { style with showText } rotation) })

/-- What a command does: notes about its data, and a step. -/
structure Report where
  notes : List Cause := []
  step : Step
  deriving DecidableEq, Repr

/-- Draws field data, or reports why its style is not valid. -/
def drawData (c : Command) : Work Report := do
  let f ← get
  let name := (argumentsOf c c.body).name
  let (data, malformed) := ({ indicator := f.field.indicator } : Field).decode c.body
  let notes := malformed.map (Cause.undecodable name)
  match f.content data with
  | .ok content => return { notes, step := .content content }
  | .error e => return { notes, step := .skip (.refused name e) }

/-- What a command does that only changes the state. -/
def setup (change : Work Unit) : Work Report := do
  change
  return { step := .setup }

/-- What a command of known purpose does. -/
def work (c : Command) (v : Verb) : Work Report :=
  let a := argumentsOf c c.body
  match v with
  | .origin => do
    let x ← a.wordOr 0 "x" 0
    let y ← a.wordOr 1 "y" 0
    return { step := .position ⟨x, y⟩ }
  | .separator => setup (setField fun _ => {})
  | .data => drawData c
  | .comment | .setup => setup (return)
  | .hexIndicator => setup do
    let i ← indicatorArg a
    setField ({ · with indicator := some i })
  | .font => setup (setFont c)
  | .defaultFont => setup (setDefaultFont a)
  | .defaultRotation => setup do
    if let some r ← rotationArg? a then setDefaults ({ · with rotation := r })
  | .block => setup do
    let width ← a.wordOr 0 "width" 0
    let alignment ← alignmentArg a
    setField ({ · with block := some (width, alignment) })
  | .barDefaults => setup (setDefaultBars a)
  | .barcode s => setup (setBarcode s a)
  | .qrCode => setup do
    let size ← moduleSizeArg a
    let level ← levelArg? a
    setField ({ · with symbol := some (.qrCode size level) })
  | .graphic => do
    let content ← graphicArg a
    return { step := .content content }
  | .pageWidth => do
    let width ← a.word 0 "width"
    return { step := .page (some width) none }
  | .pageLength => do
    let length ← a.word 0 "length"
    return { step := .page none (some length) }

/-- What any command does, and the state after it: one that is unknown or fails is skipped. -/
def WordFormat.obey (f : WordFormat) (c : Command) : Report × WordFormat :=
  match Verb.of? c.leader c.head with
  | none => ({ step := .skip (.unrecognized (String.ofList c.code)) }, f)
  | some v =>
    match (work c v).run.run f with
    | (.ok report, g) => (report, g)
    | (.error cause, g) => ({ step := .skip cause }, g)

/-! ## Programs -/

/-- The events of a segment, and the state after it. -/
def WordFormat.pass (f : WordFormat) : Segment → List Event × WordFormat
  | .bare leader span => ([.step (.skip (.unrecognized (String.ofList [leader]))) span], f)
  | .stray text span => ([.step (.skip (.stray (String.ofList text))) span], f)
  | .command c span =>
    let (report, g) := f.obey c
    (report.notes.map (fun cause => .note ⟨cause, span⟩) ++ [.step report.step span], g)

/-- The events of segments. -/
def WordFormat.events (f : WordFormat) : List Segment → List Event
  | [] => []
  | s :: ss => (f.pass s).1 ++ events (f.pass s).2 ss

/-- The state after segments. -/
def WordFormat.after (f : WordFormat) (ss : List Segment) : WordFormat := ss.foldl (fun f s => (f.pass s).2) f

end Zpl

end ThermalLabel

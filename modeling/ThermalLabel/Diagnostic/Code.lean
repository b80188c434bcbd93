import ThermalLabel.Diagnostic.Basic

/-!
# Codes of diagnostics

Every diagnostic that reading or writing a label reports has one of six codes. Codes that begin with `LBL1` are about
programs that are read, those with `LBL2` about programs that are written. `explain?` gives the text that explains one.
-/

namespace ThermalLabel

/-- What a diagnostic is about. -/
inductive Code where
  /-- A command or text that no scanner knows was skipped. -/
  | unrecognizedCommand
  /-- A known command with arguments that cannot be read. -/
  | malformedArguments
  /-- Something to draw without a place to draw it. -/
  | contentWithoutPosition
  /-- A program without elements. -/
  | noElements
  /-- An element that a language cannot express was left out. -/
  | unsupportedElement
  /-- An attribute that a language cannot express exactly was approximated. -/
  | lossyAttribute
  deriving DecidableEq, Repr

namespace Code

/-- Every code in the order of the identifiers. -/
def all : List Code :=
  [.unrecognizedCommand, .malformedArguments, .contentWithoutPosition, .noElements, .unsupportedElement,
    .lossyAttribute]

/-- The identifier. -/
def id : Code → String
  | .unrecognizedCommand => "LBL1101"
  | .malformedArguments => "LBL1102"
  | .contentWithoutPosition => "LBL1103"
  | .noElements => "LBL1104"
  | .unsupportedElement => "LBL2001"
  | .lossyAttribute => "LBL2002"

/-- The text that explains a code. -/
def explanation : Code → String
  | .unrecognizedCommand =>
    "The scanner met a command or line it does not know. The line was skipped and " ++
      "scanning resumed at the next command boundary."
  | .malformedArguments =>
    "A recognized command carried an argument that is missing or not a valid number. " ++
      "Only that command was skipped."
  | .contentWithoutPosition =>
    "A text, barcode, QR code or graphic command appeared before any position was set. " ++
      "Every element needs its own position command immediately before its content."
  | .noElements => "No elements could be recovered from the program."
  | .unsupportedElement =>
    "The element type has no command in the selected printer language (for example " ++
      "images, or QR codes in EPL2). The element was left out of the program."
  | .lossyAttribute =>
    "The selected printer language cannot express an element attribute exactly, so it " ++
      "was approximated (bitmap font buckets, unsupported bold or alignment, fixed QR " ++
      "orientation). Parsing the program back recovers the approximation only."

/-- The code with an identifier. -/
def ofId? (id : String) : Option Code := all.find? fun c => c.id = id

end Code

/-- The text that explains the code with an identifier. -/
def explain? (id : String) : Option String := (Code.ofId? id).map Code.explanation

/-- Every code has a different identifier, under which it is found. -/
theorem Code.ofId?_id (c : Code) : ofId? c.id = some c := by
  cases c <;> decide

end ThermalLabel

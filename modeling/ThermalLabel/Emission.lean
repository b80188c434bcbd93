import ThermalLabel.Epl.Drawing
import ThermalLabel.Tspl.Drawing
import ThermalLabel.Zpl.Drawing

/-!
# Emission

`emit` writes elements as a program for stock of a size: a header, one line for each element in stacking order, and a
footer that prints one copy. It always succeeds: elements that the language cannot express are left out with a note.
-/

namespace ThermalLabel

/-- A written program, the notes on its elements, and how many elements are in it and left out. -/
structure Emitted where
  program : String
  notes : List Note
  emitted : Nat
  skipped : Nat
  deriving DecidableEq, Repr

/-- The reports of the notes. -/
def Emitted.diagnostics (e : Emitted) : List Diagnostic := e.notes.map Note.diagnostic

namespace Language

/-- The line that draws an element. -/
def draw : Language → Element → Except Unsupported Drawn
  | .zpl => Zpl.draw
  | .epl => Epl.draw
  | .tspl => Tspl.draw

/-- The lines in front of the elements. -/
def header : Language → Stock → List (List Char)
  | .zpl => Zpl.header
  | .epl => Epl.header
  | .tspl => Tspl.header

/-- The lines after the elements. -/
def footer : Language → List (List Char)
  | .zpl => Zpl.footer
  | .epl => Epl.footer
  | .tspl => Tspl.footer

/-- The line of an element, if there is one. -/
def line? (l : Language) (e : Element) : Option (List Char) :=
  match l.draw e with
  | .ok d => some d.line
  | .error _ => none

/-- The notes on an element. -/
def notes (l : Language) (e : Element) : List Note :=
  match l.draw e with
  | .ok d => d.approximations.map fun a => ⟨l, e, .approximated a⟩
  | .error why => [⟨l, e, .skipped why⟩]

end Language

/-- Lines with a line feed after each. -/
def unlines (ls : List (List Char)) : List Char := ls.flatMap fun l => l ++ ['\n']

/-- The program that draws elements on stock of a size. -/
def emit (l : Language) (stock : Stock) (es : List Element) : Emitted :=
  let ordered := stacked es
  let drawn := ordered.filterMap l.line?
  { program := String.ofList (unlines (l.header stock ++ drawn ++ l.footer))
    notes := ordered.flatMap l.notes
    emitted := drawn.length
    skipped := ordered.countP fun e => (l.line? e).isNone }

end ThermalLabel

import ThermalLabel.Emission
import ThermalLabel.Recovery

/-!
# Conversion

A program in one language becomes a program in another: its elements are recovered and written on stock of a size that
is given, or else on stock of the size of the page that the program declares. A chain of conversions reads every program
it writes, and keeps the stock of the start.
-/

namespace ThermalLabel

/-- Why there is no stock to write on. -/
inductive NoStock where
  /-- The program declares no page. -/
  | noPage
  | invalid (why : InvalidStock)
  deriving DecidableEq, Repr

/-- The stock for the page of a program, at a density. -/
def Recovered.stock (r : Recovered) (dpi : UInt32) : Except NoStock Stock :=
  match r.page with
  | none => .error .noPage
  | some page =>
    match Stock.ofDots page.width page.height dpi with
    | .ok s => .ok s
    | .error e => .error (.invalid e)

/-- A program written and read again in one language. -/
structure Leg where
  emitted : Emitted
  recovered : Recovered
  deriving DecidableEq, Repr

/-- Writes elements in a language and reads the program. -/
def leg (stock : Stock) (l : Language) (es : List Element) : Leg :=
  let emitted := emit l stock es
  ⟨emitted, recover l emitted.program⟩

/-- Writes elements in one language after the other, each time those read last. -/
def chain (stock : Stock) (es : List Element) : List Language → List Leg
  | [] => []
  | l :: ls =>
    let step := leg stock l es
    step :: chain stock step.recovered.elements ls

end ThermalLabel

import ThermalLabel.Recovery.Step
import ThermalLabel.Shape

/-!
# Assembly

The events of a program become elements: a position is kept until the next content uses it up, and content without a
position is skipped. Elements are numbered from 1 and stacked in program order.

* `Assembly.feed` takes one event, `Assembly.finish` gives the result for a program of a length in bytes.
* A program without elements gets one more finding, about all of it.
-/

namespace ThermalLabel

/-- What was recovered from a program. The page is known only if both of its sides were declared. -/
structure Recovered where
  elements : List Element
  findings : List Finding
  skipped : Nat
  page : Option Extent
  deriving DecidableEq, Repr

/-- The reports of the findings. -/
def Recovered.diagnostics (r : Recovered) : List Diagnostic := r.findings.map Finding.diagnostic

/-- The elements and findings so far, the position not used up yet and the sides of the page declared so far. -/
structure Assembly where
  language : Language
  position : Option Point := none
  elements : List Element := []
  findings : List Finding := []
  skipped : Nat := 0
  pageWidth : Option UInt32 := none
  pageHeight : Option UInt32 := none
  deriving DecidableEq, Repr

/-- The stacking order of the element after `index` others. -/
def zOrderOf (index : Nat) : Int32 := Int32.ofNat (min index 2147483647)

/-- The element that content drawn at a place is, after `index` others. -/
def Content.element (index : Nat) (place : Point) : Content → Element
  | .field kind size rotation data =>
    { id := clampWord (index + 1), position := place, size, rotation, zOrder := zOrderOf index, content := data, kind }
  | .graphic size thickness =>
    { id := clampWord (index + 1), position := place, size, zOrder := zOrderOf index,
      kind := (Shape.of size thickness.dots).kind ⟨thickness⟩ }

namespace Assembly

/-- The assembly with something skipped. -/
def skip (a : Assembly) (cause : Cause) (span : Span) : Assembly :=
  { a with findings := a.findings ++ [⟨cause, span⟩], skipped := a.skipped + 1 }

/-- The assembly after content, which uses up the position. -/
def draw (a : Assembly) (c : Content) (span : Span) : Assembly :=
  match a.position with
  | some place => { a with position := none, elements := a.elements ++ [c.element a.elements.length place] }
  | none => a.skip (.unplaced a.language) span

/-- The assembly after an event. -/
def feed (a : Assembly) : Event → Assembly
  | .step (.position place) _ => { a with position := some place }
  | .step (.content c) span => a.draw c span
  | .step (.page width height) _ =>
    { a with pageWidth := width.or a.pageWidth, pageHeight := height.or a.pageHeight }
  | .step .setup _ => a
  | .step (.skip cause) span => a.skip cause span
  | .note f => { a with findings := a.findings ++ [f] }

/-- The page, if both sides are known. -/
def page (a : Assembly) : Option Extent :=
  match a.pageWidth, a.pageHeight with
  | some width, some height => some ⟨width, height⟩
  | _, _ => none

/-- The result for a program of `length` bytes. -/
def finish (a : Assembly) (length : Nat) : Recovered where
  elements := a.elements
  findings := if a.elements.isEmpty then a.findings ++ [⟨.nothing, ⟨0, length⟩⟩] else a.findings
  skipped := a.skipped
  page := a.page

end Assembly

/-- The result of the events of a program of `length` bytes. -/
def assemble (l : Language) (length : Nat) (events : List Event) : Recovered :=
  (events.foldl Assembly.feed { language := l }).finish length

end ThermalLabel

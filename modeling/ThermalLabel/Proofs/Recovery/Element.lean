import ThermalLabel.Proofs.Recovery.Shift
import ThermalLabel.Recovery

/-!
# Recovered elements

Whatever a program holds, its elements are numbered and stacked in the order of the program (`renumbered_recovered`).
They are text, barcodes, QR codes, boxes and lines, of which the last two have no content and are told apart by their
measures, if the scanner draws nothing else (`recoverable_of_events`).
-/

namespace ThermalLabel

/-! ## Events of a program -/

/-- What the scanner of a language reports. -/
def Language.events : Language → List Char → List Event
  | .zpl, program => Zpl.events {} (Zpl.segments (Zpl.tokens 0 program))
  | .epl, program => (lines program).flatMap fun line => line.events (Epl.interpret line.text)
  | .tspl, program => (lines program).flatMap fun line => line.events (Tspl.interpret line.text)

/-- The assembly at the end of a program. -/
def Language.assembly (l : Language) (program : List Char) : Assembly :=
  (l.events program).foldl Assembly.feed { language := l }

theorem recoverChars_eq (l : Language) (program : List Char) :
    recoverChars l program = (l.assembly program).finish (Text.byteLength program) := by
  cases l <;> rfl

theorem recover_eq (l : Language) (program : String) :
    recover l program = (l.assembly program.toList).finish (Text.byteLength program.toList) :=
  recoverChars_eq l program.toList

/-- A fact about assemblies that holds at the start and that every event keeps holds at the end. -/
theorem Language.assembly_induction {P : Assembly → Prop} (l : Language) (program : List Char)
    (hstart : P { language := l }) (hfeed : ∀ a, P a → ∀ e ∈ l.events program, P (a.feed e)) :
    P (l.assembly program) :=
  List.foldlRecOn (l.events program) Assembly.feed hstart hfeed

/-! ## Numbers -/

theorem renumbered_concat (es : List Element) (e : Element) :
    renumbered (es ++ [e]) = renumbered es ++ [e.numbered es.length] := by
  simp [renumbered]

/-- An event numbers the element that it draws. -/
theorem Assembly.renumbered_feed {a : Assembly} (h : renumbered a.elements = a.elements) (e : Event) :
    renumbered (a.feed e).elements = (a.feed e).elements := by
  cases e with
  | note f => exact h
  | step s span =>
    cases s with
    | position place | page width height | setup | skip cause => exact h
    | content c =>
      cases hp : a.position with
      | none =>
        simp only [feed, draw, hp]
        exact h
      | some place =>
        simp only [feed, draw, hp, renumbered_concat, h, c.numbered_element]

/-- **Elements are numbered in the order of the program.** -/
theorem renumbered_recovered (l : Language) (program : List Char) :
    renumbered (recoverChars l program).elements = (recoverChars l program).elements := by
  rw [recoverChars_eq]
  refine l.assembly_induction (P := fun a => renumbered a.elements = a.elements) program rfl ?_
  intro a ha e _
  exact Assembly.renumbered_feed ha e

/-! ## Kinds -/

/-- An element of a kind that programs draw. Boxes and lines are told apart by their measures and have no content. -/
def Element.Recoverable (e : Element) : Prop :=
  match e.kind with
  | .text _ | .barcode _ | .qrCode _ => True
  | .price _ | .image => False
  | .box stroke | .line stroke => e.content = "" ∧ (Shape.of e.size stroke.thickness.dots).kind stroke = e.kind

/-- Content that becomes such an element. -/
def Content.Recoverable (c : Content) : Prop := ∀ index place, (c.element index place).Recoverable

theorem Content.recoverable_graphic (size : Extent) (thickness : PositiveDots) :
    (Content.graphic size thickness).Recoverable := by
  intro index place
  simp only [Element.Recoverable, Content.element]
  cases h : Shape.of size thickness.dots with
  | box | line =>
    refine ⟨trivial, ?_⟩
    rw [h]

theorem Content.recoverable_field {kind : ElementKind} (size : Extent) (r : Rotation) (data : String)
    (h : (∃ style, kind = .text style) ∨ (∃ style, kind = .barcode style) ∨ ∃ style, kind = .qrCode style) :
    (Content.field kind size r data).Recoverable := by
  intro index place
  rcases h with ⟨style, rfl⟩ | ⟨style, rfl⟩ | ⟨style, rfl⟩
  · trivial
  · trivial
  · trivial

/-- An event that draws no other content. -/
def Event.Recoverable : Event → Prop
  | .step (.content c) _ => c.Recoverable
  | _ => True

/-- An event adds a recoverable element, if any. -/
theorem Assembly.recoverable_feed {a : Assembly} (h : ∀ x ∈ a.elements, x.Recoverable) {e : Event}
    (he : e.Recoverable) : ∀ x ∈ (a.feed e).elements, x.Recoverable := by
  cases e with
  | note f => exact h
  | step s span =>
    cases s with
    | position place | page width height | setup | skip cause => exact h
    | content c =>
      cases hp : a.position with
      | none =>
        simp only [feed, draw, hp]
        exact h
      | some place =>
        simp only [feed, draw, hp]
        intro x hx
        rcases List.mem_append.1 hx with hx | hx
        · exact h x hx
        · rw [List.mem_singleton.1 hx]
          exact he _ _

/-- **All elements are recoverable** if all content is. -/
theorem recoverable_of_events {l : Language} {program : List Char} (h : ∀ e ∈ l.events program, e.Recoverable) :
    ∀ x ∈ (recoverChars l program).elements, x.Recoverable := by
  rw [recoverChars_eq]
  refine l.assembly_induction (P := fun a => ∀ x ∈ a.elements, x.Recoverable) program ?_ ?_
  · intro x hx
    cases hx
  · intro a ha e he
    exact Assembly.recoverable_feed ha (h e he)

end ThermalLabel

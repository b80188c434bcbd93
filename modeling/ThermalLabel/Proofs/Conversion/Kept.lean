import Mathlib.Data.List.Forall2
import ThermalLabel.Emission
import ThermalLabel.Proofs.Emission.Line

/-!
# What a program keeps of an element

`Language.kept?` is the element that reading the line of an element gives, its number and stacking order apart. Every
language keeps positions, barcodes and the shape of graphics, and reads a price as text. Otherwise:

* **ZPL** keeps content as it is, but of fonts only a letter or digit, and draws QR codes upright;
* **EPL2** and **TSPL** put content on one line and keep of a font only its height; boxes end at the largest word, and a
  line is as thick as its shorter side. EPL2 has no alignment and no QR codes.

An element is kept iff it has a line (`isSome_kept?`).
-/

namespace ThermalLabel

/-! ## ZPL -/

namespace Zpl

/--
The style of text in ZPL. Characters are wider than high iff they were bold, but for the largest size, which leaves no
room for wider ones.
-/
def keptStyle (style : TextStyle) (width : UInt32) : TextStyle where
  font := String.ofList [fontName style.font]
  size := style.size
  bold := style.bold || style.size.dots = wordMax
  alignment := if width = 0 then .left else style.alignment

/-- A box or line as ZPL draws it: a line is never thinner than its stroke. -/
def keptGraphic (e : Element) (stroke : Stroke) : Element :=
  let shape := Shape.of e.size stroke.thickness.dots
  { e with
    rotation := .deg0
    content := ""
    size := match shape with
      | .box => e.size
      | .line => solidExtent e.size stroke
    kind := shape.kind stroke }

/-- What ZPL keeps of an element. The width of text is that of its alignment. -/
def kept? (e : Element) : Option Element :=
  match e.kind with
  | .text style | .price style =>
    some { e with
      size := ⟨if style.alignment = .left then 0 else e.size.width, style.size.dots⟩
      kind := .text (keptStyle style e.size.width) }
  | .barcode style => some { e with size := ⟨0, style.moduleHeight.dots⟩ }
  | .qrCode _ => some { e with size := {}, rotation := .deg0 }
  | .image => none
  | .box stroke | .line stroke => some (keptGraphic e stroke)

end Zpl

/-! ## EPL2 and TSPL -/

theorem solidExtent_ne_zero (size : Extent) (stroke : Stroke) :
    min (solidExtent size stroke).width (solidExtent size stroke).height ≠ 0 := by
  intro h
  have ht : stroke.thickness.dots.toNat ≠ 0 := fun e => stroke.thickness.ne_zero (UInt32.toNat_inj.1 e)
  have hz : (min (solidExtent size stroke).width (solidExtent size stroke).height).toNat = 0 := by rw [h]; rfl
  rw [toNat_min, solidExtent, toNat_max, toNat_max] at hz
  omega

/-- The stroke of a line: its shorter side. -/
def solidStroke (size : Extent) (stroke : Stroke) : Stroke := ⟨⟨_, solidExtent_ne_zero size stroke⟩⟩

/-- The part of a box that the largest word reaches. -/
def framedExtent (place : Point) (size : Extent) : Extent :=
  ⟨min size.width (wordMax - place.x), min size.height (wordMax - place.y)⟩

/-- A box or line as EPL2 and TSPL draw it: a box by its corners, a line as a solid bar. -/
def keptGraphic (e : Element) (stroke : Stroke) : Element :=
  let upright := { e with rotation := .deg0, content := "" }
  match Shape.of e.size stroke.thickness.dots with
  | .box =>
    let size := framedExtent e.position e.size
    { upright with size, kind := (Shape.of size stroke.thickness.dots).kind stroke }
  | .line => { upright with size := solidExtent e.size stroke, kind := .line (solidStroke e.size stroke) }

/-- Content with a space for each control character. -/
def singleLine (content : String) : String := String.ofList (oneLine content.toList)

theorem toList_singleLine (content : String) : (singleLine content).toList = oneLine content.toList :=
  String.toList_ofList

/-- Text in a bitmap font: of its style, only the height of the font and perhaps an alignment are kept. -/
def keptText (e : Element) (height : PositiveDots) (alignment : Alignment) : Element :=
  { e with content := singleLine e.content, size := ⟨0, height.dots⟩, kind := .text { size := height, alignment } }

/-- What EPL2 keeps of an element. -/
def Epl.kept? (e : Element) : Option Element :=
  match e.kind with
  | .text style | .price style => some (keptText e (eplFont style.size).height .left)
  | .barcode style => some { e with content := singleLine e.content, size := ⟨0, style.moduleHeight.dots⟩ }
  | .qrCode _ | .image => none
  | .box stroke | .line stroke => some (keptGraphic e stroke)

/-- What TSPL keeps of an element. -/
def Tspl.kept? (e : Element) : Option Element :=
  match e.kind with
  | .text style | .price style => some (keptText e (tsplFont style.size).height style.alignment)
  | .barcode style => some { e with content := singleLine e.content, size := ⟨0, style.moduleHeight.dots⟩ }
  | .qrCode _ => some { e with content := singleLine e.content, size := {} }
  | .image => none
  | .box stroke | .line stroke => some (keptGraphic e stroke)

/-! ## Graphics that are drawn again -/

/-- Does the far corner of what is drawn as a box lie within the largest word? -/
def Element.BoxFits (e : Element) : Prop :=
  ∀ stroke, e.kind = .box stroke ∨ e.kind = .line stroke → Shape.of e.size stroke.thickness.dots = .box →
    e.position.x.toNat + e.size.width.toNat ≤ wordMax.toNat ∧ e.position.y.toNat + e.size.height.toNat ≤ wordMax.toNat

/-- Nothing is cut off from such a box. -/
theorem Element.BoxFits.framedExtent_eq {e : Element} {stroke : Stroke} (h : e.BoxFits)
    (hk : e.kind = .box stroke ∨ e.kind = .line stroke) (hs : Shape.of e.size stroke.thickness.dots = .box) :
    framedExtent e.position e.size = e.size := by
  have hside : ∀ x w : UInt32, x.toNat + w.toNat ≤ wordMax.toNat → min w (wordMax - x) = w := by
    intro x w hle
    apply UInt32.toNat_inj.1
    rw [toNat_min, UInt32.toNat_sub_of_le _ _ (UInt32.le_iff_toNat_le.2 (toNat_le_wordMax x))]
    omega
  obtain ⟨hx, hy⟩ := h stroke hk hs
  rw [framedExtent, hside _ _ hx, hside _ _ hy]

/-- The stroke of the box or line that EPL2 and TSPL keep. -/
def keptStroke (size : Extent) (stroke : Stroke) : Stroke :=
  match Shape.of size stroke.thickness.dots with
  | .box => stroke
  | .line => solidStroke size stroke

/-- A graphic is drawn as a box or a line. -/
theorem Shape.kind_cases (s : Shape) (stroke : Stroke) :
    s.kind stroke = .box stroke ∨ s.kind stroke = .line stroke := by
  cases s with
  | box => exact .inl rfl
  | line => exact .inr rfl

/-- What is kept of a graphic is what its measures make of it. -/
theorem keptGraphic_kind (e : Element) (stroke : Stroke) :
    (keptGraphic e stroke).kind = (Shape.of (keptGraphic e stroke).size (keptStroke e.size stroke).thickness.dots).kind
      (keptStroke e.size stroke) := by
  cases h : Shape.of e.size stroke.thickness.dots with
  | box => simp only [keptGraphic, keptStroke, h]
  | line =>
    simp only [keptGraphic, keptStroke, h, solidStroke, shape_of_solid]
    rfl

/-- A solid bar is drawn with the sides it has. -/
theorem solidExtent_solidStroke (size : Extent) (stroke : Stroke) :
    solidExtent (solidExtent size stroke) (solidStroke size stroke) = solidExtent size stroke := by
  have hmax : ∀ w m : UInt32, m.toNat ≤ w.toNat → max w m = w := by
    intro w m h
    apply UInt32.toNat_inj.1
    rw [toNat_max]
    omega
  have hmin := toNat_min (solidExtent size stroke).width (solidExtent size stroke).height
  rw [solidExtent, solidStroke, hmax _ _ (by rw [hmin]; omega), hmax _ _ (by rw [hmin]; omega)]

/-! ## All languages -/

/-- What a language keeps of an element. -/
def Language.kept? : Language → Element → Option Element
  | .zpl => Zpl.kept?
  | .epl => Epl.kept?
  | .tspl => Tspl.kept?

/-- An element is kept iff it has a line. -/
theorem isSome_kept? (l : Language) (e : Element) : (l.kept? e).isSome = (l.line? e).isSome := by
  obtain ⟨_, _, _, _, _, _, kind⟩ := e
  cases l <;> cases kind <;> rfl

/-- A program has a line for each element kept. -/
theorem emitted_eq_length (l : Language) (stock : Stock) (es : List Element) :
    (emit l stock es).emitted = ((stacked es).filterMap l.kept?).length := by
  simp only [emit, List.length_filterMap_eq_countP, isSome_kept?]

/-- What relates each element written to what is kept of it relates all that is written to all that is kept. -/
theorem forall₂_kept {α : Type} {R : α → Element → Prop} {write : Element → Option α} (l : Language)
    (h : ∀ e, Option.Rel R (write e) (l.kept? e)) (es : List Element) :
    List.Forall₂ R (es.filterMap write) (es.filterMap l.kept?) := by
  refine List.rel_filterMap (R := Eq) ?_ (List.forall₂_refl es)
  intro e _ he
  rw [← he]
  exact h e

end ThermalLabel

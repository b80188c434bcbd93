import ThermalLabel.Proofs.Conversion.Related

/-!
# The shape of graphics

A box or line is drawn by its measures and read back as what they make of it. ZPL writes the measures themselves. EPL2
and TSPL write the far corner of a box, which the largest word cuts off, so that what is left of a box may be a line
(`shape_framed`); and they write the sides of a line, from which its stroke is taken, so that it stays one
(`shape_of_solid`).

**In every language, what is read has the shape that the measures within reach make** (`recover_shape`). This is the
shape of the element itself where nothing is cut off, so there it is the same in all languages.
-/

namespace ThermalLabel

/-- The stroke of a box or line. -/
def ElementKind.stroke? : ElementKind → Option Stroke
  | .box stroke | .line stroke => some stroke
  | _ => none

/-- The shape of a box or line. -/
def ElementKind.shape? : ElementKind → Option Shape
  | .box _ => some .box
  | .line _ => some .line
  | _ => none

theorem Shape.shape?_kind (s : Shape) (stroke : Stroke) : (s.kind stroke).shape? = some s := by
  cases s <;> rfl

theorem ElementKind.stroke?_eq_some {k : ElementKind} {stroke : Stroke} (h : k.stroke? = some stroke) :
    k = .box stroke ∨ k = .line stroke := by
  cases k with
  | box stroke' => exact .inl (congrArg ElementKind.box (Option.some.inj h))
  | line stroke' => exact .inr (congrArg ElementKind.line (Option.some.inj h))
  | text | price | barcode | qrCode | image => cases h

/-- The measures of a graphic as far as a language can draw them. -/
def Language.reach : Language → Element → Extent
  | .zpl, e => e.size
  | .epl, e | .tspl, e => framedExtent e.position e.size

/-- A line stays one when it is cut off. -/
theorem shape_framed {place : Point} {size : Extent} {thickness : UInt32} (h : Shape.of size thickness = .line) :
    Shape.of (framedExtent place size) thickness = .line := by
  unfold Shape.of at h ⊢
  split at h
  · rw [framedExtent, toNat_min, toNat_min, if_pos (by omega)]
  · cases h

/-- Nothing is cut off in ZPL, nor from a box that fits. -/
theorem shape_reach_of_fits {l : Language} {e : Element} {stroke : Stroke} (h : l = .zpl ∨ e.BoxFits)
    (hk : e.kind.stroke? = some stroke) :
    Shape.of (l.reach e) stroke.thickness.dots = Shape.of e.size stroke.thickness.dots := by
  have hframed : e.BoxFits → Shape.of (framedExtent e.position e.size) stroke.thickness.dots =
      Shape.of e.size stroke.thickness.dots := by
    intro hfits
    cases hs : Shape.of e.size stroke.thickness.dots with
    | box => rw [hfits.framedExtent_eq (ElementKind.stroke?_eq_some hk) hs, hs]
    | line => exact shape_framed hs
  rcases h with rfl | hfits
  · rfl
  · cases l with
    | zpl => rfl
    | epl | tspl => exact hframed hfits

/-- What EPL2 and TSPL keep of a graphic has the shape of what is within reach. -/
theorem shape?_keptGraphic (e : Element) (stroke : Stroke) :
    (keptGraphic e stroke).kind.shape? = some (Shape.of (framedExtent e.position e.size) stroke.thickness.dots) := by
  cases h : Shape.of e.size stroke.thickness.dots with
  | box => simp only [keptGraphic, h, Shape.shape?_kind]
  | line => simp only [keptGraphic, h, shape_framed h, ElementKind.shape?]

/-- **What is kept of a graphic** has the shape of what is within reach, and nothing else has a shape. -/
theorem shape?_kept (l : Language) (e : Element) : (l.kept? e).bind (·.kind.shape?) =
    e.kind.stroke?.map fun stroke => Shape.of (l.reach e) stroke.thickness.dots := by
  obtain ⟨id, position, size, rotation, zOrder, content, kind⟩ := e
  cases kind with
  | text style | price style | barcode style | qrCode style | image => cases l <;> rfl
  | box stroke | line stroke =>
    cases l with
    | zpl => exact Shape.shape?_kind _ stroke
    | epl | tspl => exact shape?_keptGraphic _ stroke

/-- The shapes among what is read. -/
theorem shapes_recover (l : Language) (stock : Stock) (es : List Element) :
    (recover l (emit l stock es).program).elements.filterMap (·.kind.shape?) =
      (stacked es).filterMap fun e => e.kind.stroke?.map fun stroke =>
        Shape.of (l.reach e) stroke.thickness.dots := by
  calc (recover l (emit l stock es).program).elements.filterMap (·.kind.shape?)
      = (renumbered ((stacked es).filterMap l.kept?)).filterMap (·.kind.shape?) :=
        congrArg (fun r => r.elements.filterMap (·.kind.shape?)) (recover_emit l stock es)
    _ = ((stacked es).filterMap l.kept?).filterMap (·.kind.shape?) :=
        filterMap_renumbered (fun _ _ => rfl) _
    _ = (stacked es).filterMap fun e => (l.kept? e).bind (·.kind.shape?) := List.filterMap_filterMap
    _ = _ := List.filterMap_congr fun e _ => shape?_kept l e

/--
**The shape of what is read** in place of a box or line is that of its measures within reach, which in ZPL and for boxes
that fit are its own. So graphics that fit have the same shapes in all languages.
-/
theorem recover_shape (l : Language) (stock : Stock) (es : List Element) :
    List.Forall₂ (fun e read => ∀ stroke, e.kind.stroke? = some stroke →
        read.kind.shape? = some (Shape.of (l.reach e) stroke.thickness.dots) ∧
          (l = .zpl ∨ e.BoxFits → read.kind.shape? = some (Shape.of e.size stroke.thickness.dots)))
      ((stacked es).filter l.expresses) (recover l (emit l stock es).program).elements ∧
    ∀ l', (∀ e ∈ es, e.BoxFits) →
      (recover l' (emit l' stock es).program).elements.filterMap (·.kind.shape?) =
        (recover l (emit l stock es).program).elements.filterMap (·.kind.shape?) := by
  refine ⟨?_, fun l' hfits => ?_⟩
  · refine forall₂_recover_emit l stock es (fun e k index h => h) ?_
    intro e _ k hk stroke hstroke
    have hshape := shape?_kept l e
    rw [hk, hstroke] at hshape
    refine ⟨hshape, fun hfits => ?_⟩
    rw [← shape_reach_of_fits hfits hstroke]
    exact hshape
  · rw [shapes_recover, shapes_recover]
    refine List.filterMap_congr fun e he => ?_
    cases hstroke : e.kind.stroke? with
    | none => rfl
    | some stroke =>
      have hfit : e.BoxFits := hfits e ((perm_stacked es).mem_iff.1 he)
      rw [Option.map_some, Option.map_some, shape_reach_of_fits (.inr hfit) hstroke,
        shape_reach_of_fits (.inr hfit) hstroke]

/-- A box at the edge of what a word can reach is read as a line in EPL2. -/
theorem recover_cut_box :
    let stock : Stock := ⟨.ofNat 50, .ofNat 25, 203, .ofNat 2, by decide, by decide, by decide, by decide⟩
    let stroke : Stroke := ⟨⟨3, by decide⟩⟩
    let e : Element := { id := 1, position := ⟨4294967290, 20⟩, size := ⟨100, 60⟩, kind := .box stroke }
    let read := fun l => (recover l (emit l stock [e]).program).elements.map (·.kind.shape?)
    Shape.of e.size stroke.thickness.dots = .box ∧ read .epl = [some .line] ∧ read .zpl = [some .box] := by
  intro stock stroke e read
  have hread : ∀ l, read l = (renumbered ((stacked [e]).filterMap l.kept?)).map (·.kind.shape?) := fun l =>
    congrArg (fun r => r.elements.map (·.kind.shape?)) (recover_emit l stock [e])
  refine ⟨by decide, ?_, ?_⟩
  · rw [hread, stacked, List.mergeSort_singleton]
    decide
  · rw [hread, stacked, List.mergeSort_singleton]
    decide

end ThermalLabel

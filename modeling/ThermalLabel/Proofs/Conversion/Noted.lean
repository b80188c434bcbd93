import ThermalLabel.Proofs.Conversion.Bold
import ThermalLabel.Proofs.Conversion.Faithful

/-!
# Notes are exact

A note on text, a price, a barcode or a QR code names an attribute. Attribute by attribute, the notes on an element are
compared with what is read in its place (`Noted`): in every language there is one note for each attribute that is read
otherwise, and no other (`noted_draw`). Reports name the element by its id, so where ids are distinct each report is
about one element, and **the reports on a label are exact** (`notesOn_emit`).

ZPL has no note on the weight of text. The shape of graphics has notes of its own, which are not considered here.
-/

namespace ThermalLabel

/-! ## Attributes -/

/-- What a note on text, a barcode or a QR code may be about. -/
inductive Attribute where
  | fontSize
  | bold
  | alignment
  | rotation
  | content
  deriving DecidableEq, Repr

namespace Attribute

/-- The name of the attribute in reports. -/
def name : Attribute → String
  | .fontSize => "font_size"
  | .bold => "bold"
  | .alignment => "alignment"
  | .rotation => "rotation"
  | .content => "content"

/-- Is an element read with another value of the attribute? Only text and prices have the first three. -/
def differs (a : Attribute) (e read : Element) : Bool :=
  match a with
  | .fontSize => read.kind.textStyle?.map TextStyle.size ≠ e.kind.textStyle?.map TextStyle.size
  | .bold => read.kind.textStyle?.map TextStyle.bold ≠ e.kind.textStyle?.map TextStyle.bold
  | .alignment => read.kind.textStyle?.map TextStyle.alignment ≠ e.kind.textStyle?.map TextStyle.alignment
  | .rotation => read.rotation ≠ e.rotation
  | .content => read.content ≠ e.content

theorem name_injective {a b : Attribute} (h : a.name = b.name) : a = b := by
  cases a <;> cases b <;> first | rfl | exact absurd h (by decide)

end Attribute

/-- The attributes that a language has notes on. ZPL has none on the weight of text, which it keeps at all sizes but
one. -/
def Language.attributes : Language → List Attribute
  | .zpl => [.fontSize, .alignment, .rotation, .content]
  | .epl | .tspl => [.fontSize, .bold, .alignment, .rotation, .content]

theorem Language.count_attributes {l : Language} {a : Attribute} (h : a ∈ l.attributes) :
    l.attributes.count a = 1 := by
  revert h
  cases l <;> cases a <;> decide

/-- Is it text, a price, a barcode or a QR code? -/
def ElementKind.isField : ElementKind → Bool
  | .text _ | .price _ | .barcode _ | .qrCode _ => true
  | .image | .box _ | .line _ => false

/-! ## What is noted -/

/-- The notes on an element are about just those of some attributes that are read otherwise, one each and in their
order. -/
inductive Noted (e read : Element) : List Attribute → List Approximation → Prop
  | nil : Noted e read [] []
  | kept {a : Attribute} {as : List Attribute} {notes : List Approximation} :
      a.differs e read = false → Noted e read as notes → Noted e read (a :: as) notes
  | lost {a : Attribute} {as : List Attribute} {note : Approximation} {notes : List Approximation} :
      a.differs e read = true → note.attributeName = a.name → Noted e read as notes →
        Noted e read (a :: as) (note :: notes)

namespace Noted

variable {e read : Element} {a : Attribute} {as : List Attribute} {notes : List Approximation}

/-- A note under a condition is about an attribute that is read otherwise under this condition. -/
theorem noteIf {b : Bool} {note : Approximation} (hb : a.differs e read = b) (hname : note.attributeName = a.name)
    (h : Noted e read as notes) : Noted e read (a :: as) (ThermalLabel.noteIf b note ++ notes) := by
  cases b with
  | true => exact .lost hb hname h
  | false => exact .kept hb h

theorem noteIf_last {b : Bool} {note : Approximation} (hb : a.differs e read = b)
    (hname : note.attributeName = a.name) (h : Noted e read as []) :
    Noted e read (a :: as) (ThermalLabel.noteIf b note) := by
  rw [← List.append_nil (ThermalLabel.noteIf b note)]
  exact h.noteIf hb hname

/-- The notes on one attribute. -/
theorem countP_name (h : Noted e read as notes) (a : Attribute) :
    notes.countP (·.attributeName = a.name) = if a.differs e read then as.count a else 0 := by
  induction h with
  | nil => simp
  | @kept b as notes hb h ih =>
    rw [ih, List.count_cons]
    by_cases hab : b = a
    · subst hab
      simp [hb]
    · simp [hab]
  | @lost b as note notes hb hname h ih =>
    rw [List.countP_cons, ih, List.count_cons, hname]
    by_cases hab : b = a
    · subst hab
      simp [hb]
    · simp [hab, mt Attribute.name_injective hab]

end Noted

/-- Content differs on one line iff it has a control character. -/
theorem differs_singleLine {e read : Element} (h : read.content = singleLine e.content) :
    Attribute.content.differs e read = e.content.toList.any Text.isControl := by
  rw [Attribute.differs, h]
  cases hany : e.content.toList.any Text.isControl with
  | false => simpa using singleLine_of_silent (noteIf_eq_nil.2 hany)
  | true =>
    refine decide_eq_true fun heq => ?_
    rw [← heq, toList_singleLine, oneLine_controls] at hany
    cases hany

/-- Of what is no text, only content is read otherwise in EPL2 and TSPL. -/
theorem noted_oneLine {e read : Element} (hstyle : e.kind.textStyle? = none) (hstyle' : read.kind.textStyle? = none)
    (hrotation : read.rotation = e.rotation) (hcontent : read.content = singleLine e.content) :
    Noted e read [.fontSize, .bold, .alignment, .rotation, .content] (oneLineNotes e.content.toList) := by
  refine .kept ?_ (.kept ?_ (.kept ?_ (.kept ?_ (.noteIf_last (differs_singleLine hcontent) rfl .nil))))
  · simp [Attribute.differs, hstyle, hstyle']
  · simp [Attribute.differs, hstyle, hstyle']
  · simp [Attribute.differs, hstyle, hstyle']
  · simp [Attribute.differs, hrotation]

/-- What is read as it was written does not differ. -/
theorem decide_ne_self {α : Type} [DecidableEq α] (x : α) : decide (x ≠ x) = false := decide_eq_false (absurd rfl)

/-- **ZPL** notes what it does not keep. -/
theorem Zpl.noted {e k : Element} {d : Drawn} (hf : e.kind.isField) (hk : kept? e = some k) (hd : draw e = .ok d) :
    Noted e k Language.zpl.attributes d.approximations := by
  obtain ⟨id, position, size, rotation, zOrder, content, kind⟩ := e
  cases kind with
  | text style | price style =>
    obtain rfl := Option.some.inj hk
    obtain rfl := Except.ok.inj hd
    refine .kept ?_ (.noteIf_last ?_ rfl (.kept (decide_ne_self _) (.kept (decide_ne_self _) .nil)))
    · simp [Attribute.differs, ElementKind.textStyle?, keptStyle]
    · -- without a width, text is read as set to the left
      by_cases hwidth : size.width = 0
      · simp [Attribute.differs, ElementKind.textStyle?, keptStyle, hwidth, eq_comm]
      · simp [Attribute.differs, ElementKind.textStyle?, keptStyle, hwidth]
  | barcode style =>
    obtain rfl := Option.some.inj hk
    obtain rfl := Except.ok.inj hd
    exact .kept rfl (.kept rfl (.kept (decide_ne_self _) (.kept (decide_ne_self _) .nil)))
  | qrCode style =>
    obtain rfl := Option.some.inj hk
    obtain rfl := Except.ok.inj hd
    refine .kept rfl (.kept rfl (.noteIf_last ?_ rfl (.kept (decide_ne_self _) .nil)))
    exact decide_eq_decide.2 ne_comm
  | image | box stroke | line stroke => cases hf

/-- **EPL2** notes what it does not keep. -/
theorem Epl.noted {e k : Element} {d : Drawn} (hf : e.kind.isField) (hk : kept? e = some k) (hd : draw e = .ok d) :
    Noted e k Language.epl.attributes d.approximations := by
  obtain ⟨id, position, size, rotation, zOrder, content, kind⟩ := e
  cases kind with
  | text style | price style =>
    obtain rfl := Option.some.inj hk
    obtain rfl := Except.ok.inj hd
    show Noted _ _ _ (fontNotes style ++ oneLineNotes content.toList)
    rw [fontNotes, List.append_assoc, List.append_assoc]
    refine .noteIf ?_ rfl (.noteIf ?_ rfl (.noteIf ?_ rfl (.kept (decide_ne_self _) (.noteIf_last ?_ rfl .nil))))
    · simp [Attribute.differs, ElementKind.textStyle?, keptText]
    · simp [Attribute.differs, ElementKind.textStyle?, keptText]
    · simp [Attribute.differs, ElementKind.textStyle?, keptText, eq_comm]
    · exact differs_singleLine rfl
  | barcode style =>
    obtain rfl := Option.some.inj hk
    obtain rfl := Except.ok.inj hd
    exact noted_oneLine rfl rfl rfl rfl
  | qrCode style => cases hk
  | image | box stroke | line stroke => cases hf

/-- **TSPL** notes what it does not keep. -/
theorem Tspl.noted {e k : Element} {d : Drawn} (hf : e.kind.isField) (hk : kept? e = some k) (hd : draw e = .ok d) :
    Noted e k Language.tspl.attributes d.approximations := by
  obtain ⟨id, position, size, rotation, zOrder, content, kind⟩ := e
  cases kind with
  | text style | price style =>
    obtain rfl := Option.some.inj hk
    obtain rfl := Except.ok.inj hd
    show Noted _ _ _ (fontNotes style ++ oneLineNotes content.toList)
    rw [fontNotes, List.append_assoc]
    refine .noteIf ?_ rfl (.noteIf ?_ rfl (.kept (decide_ne_self _) (.kept (decide_ne_self _)
      (.noteIf_last (differs_singleLine rfl) rfl .nil))))
    · simp [Attribute.differs, ElementKind.textStyle?, keptText]
    · simp [Attribute.differs, ElementKind.textStyle?, keptText]
  | barcode style | qrCode style =>
    obtain rfl := Option.some.inj hk
    obtain rfl := Except.ok.inj hd
    exact noted_oneLine rfl rfl rfl rfl
  | image | box stroke | line stroke => cases hf

/-- **Every language notes what it does not keep.** -/
theorem noted_draw {l : Language} {e k : Element} {d : Drawn} (hf : e.kind.isField) (hk : l.kept? e = some k)
    (hd : l.draw e = .ok d) : Noted e k l.attributes d.approximations := by
  cases l with
  | zpl => exact Zpl.noted hf hk hd
  | epl => exact Epl.noted hf hk hd
  | tspl => exact Tspl.noted hf hk hd

/-! ## Reports -/

/-- Different words are written with different digits. -/
theorem toString_word_injective : Function.Injective (toString : UInt32 → String) := by
  intro a b h
  have hdigits : wordDigits a = wordDigits b := String.ofList_inj.1 h
  have hread := readWord_wordDigits a
  rw [hdigits, readWord_wordDigits] at hread
  exact (Option.some.inj hread).symm

/-- Does the report name an element by its id, and an attribute that is approximated? -/
def Diagnostic.isNote (id : UInt32) (a : Attribute) (d : Diagnostic) : Bool :=
  let facts := d.context.getD []
  d.id = "LBL2002" && ("element", toString id) ∈ facts && ("attribute", a.name) ∈ facts

/-- The number of such reports. -/
def Emitted.notesOn (written : Emitted) (id : UInt32) (a : Attribute) : Nat :=
  written.diagnostics.countP (Diagnostic.isNote id a)

/-- A report names the element and the attribute that its note is about. -/
theorem isNote_diagnostic (l : Language) (e : Element) (n : Approximation) (id : UInt32) (a : Attribute) :
    (Note.diagnostic ⟨l, e, .approximated n⟩).isNote id a = (e.id = id && n.attributeName = a.name) := by
  have hid : toString id = toString e.id ↔ e.id = id := by
    rw [eq_comm, toString_word_injective.eq_iff]
  have hname : a.name = n.attributeName ↔ n.attributeName = a.name := eq_comm
  simp [Diagnostic.isNote, Note.diagnostic, Code.id, hid, hname]

/-- The report that an element is left out is no note. -/
theorem isNote_leftOut (l : Language) (e : Element) (why : Unsupported) (id : UInt32) (a : Attribute) :
    (l.leftOut e why).isNote id a = false := by
  simp [Diagnostic.isNote, Language.leftOut]

/-- The reports on an element are about what its line approximates. -/
theorem countP_reports {l : Language} {e : Element} {d : Drawn} (h : l.draw e = .ok d) (id : UInt32) (a : Attribute) :
    (l.reports e).countP (Diagnostic.isNote id a) =
      if e.id = id then d.approximations.countP (·.attributeName = a.name) else 0 := by
  simp only [Language.reports, Language.notes, h, List.map_map, List.countP_map]
  split
  · rename_i hid
    refine List.countP_congr fun n _ => ?_
    rw [Function.comp_apply, Function.comp_apply, isNote_diagnostic, hid]
    simp
  · rename_i hid
    refine List.countP_eq_zero.2 fun n _ => ?_
    rw [Function.comp_apply, Function.comp_apply, isNote_diagnostic]
    simp [hid]

/-- The reports on an element name no other. -/
theorem countP_reports_of_ne {l : Language} {e : Element} {id : UInt32} (h : e.id ≠ id) (a : Attribute) :
    (l.reports e).countP (Diagnostic.isNote id a) = 0 := by
  rcases Language.draw_cases l e with ⟨-, d, hd⟩ | ⟨why, hwhy, -⟩
  · rw [countP_reports hd, if_neg h]
  · rw [Language.reports_of_unsupported hwhy, List.countP_singleton, isNote_leftOut]
    rfl

/-- The order of the elements does not matter. -/
theorem notesOn_eq (l : Language) (stock : Stock) (es : List Element) (id : UInt32) (a : Attribute) :
    (emit l stock es).notesOn id a = (es.flatMap l.reports).countP (Diagnostic.isNote id a) := by
  rw [Emitted.notesOn, diagnostics_emit]
  exact ((perm_stacked es).flatMap_right l.reports).countP_eq _

/-- If only one item has a key, what is counted for this key is found with it. -/
theorem countP_flatMap_of_nodup {α β κ : Type} {key : α → κ} {f : α → List β} {p : β → Bool} {x : α} {xs : List α}
    (hnodup : (xs.map key).Nodup) (hx : x ∈ xs) (hother : ∀ y, key y ≠ key x → (f y).countP p = 0) :
    (xs.flatMap f).countP p = (f x).countP p := by
  induction xs with
  | nil => exact (List.not_mem_nil hx).elim
  | cons y ys ih =>
    obtain ⟨hy, hys⟩ := List.nodup_cons.1 hnodup
    rw [List.flatMap_cons, List.countP_append]
    rcases List.mem_cons.1 hx with rfl | hx
    · have hrest : (ys.flatMap f).countP p = 0 := by
        refine List.countP_eq_zero.2 fun b hb => ?_
        obtain ⟨z, hz, hb⟩ := List.mem_flatMap.1 hb
        have hne : key z ≠ key x := fun heq => hy (heq ▸ List.mem_map_of_mem hz)
        exact List.countP_eq_zero.1 (hother z hne) b hb
      rw [hrest, Nat.add_zero]
    · have hne : key y ≠ key x := fun heq => hy (heq ▸ List.mem_map_of_mem hx)
      rw [hother y hne, ih hys hx, Nat.zero_add]

/--
**Notes are exact.** Of elements with distinct ids, each text, price, barcode and QR code that a language can express is
named by exactly one report for each attribute with which it is not read, and by none for the others.
-/
theorem notesOn_emit {es : List Element} (hids : (es.map Element.id).Nodup) (l : Language) (stock : Stock) :
    List.Forall₂ (fun e read => e.kind.isField → ∀ a ∈ l.attributes,
        (emit l stock es).notesOn e.id a = if a.differs e read then 1 else 0)
      ((stacked es).filter l.expresses) (recover l (emit l stock es).program).elements := by
  refine forall₂_recover_emit l stock es (fun e k index h => h) ?_
  intro e he k hk hfield a ha
  rcases Language.draw_cases l e with ⟨-, d, hd⟩ | ⟨why, hwhy, hd⟩
  · have hone : l.attributes.count a = 1 := Language.count_attributes ha
    calc (emit l stock es).notesOn e.id a
        = (l.reports e).countP (Diagnostic.isNote e.id a) := by
          rw [notesOn_eq]
          exact countP_flatMap_of_nodup hids he fun y hy => countP_reports_of_ne hy a
      _ = d.approximations.countP (·.attributeName = a.name) := by rw [countP_reports hd, if_pos rfl]
      _ = if a.differs e k then 1 else 0 := by rw [(noted_draw hfield hk hd).countP_name a, hone]
  · have hnone := isSome_kept? l e
    rw [hk, Language.line?, hd] at hnone
    cases hnone

/-- Two texts in EPL2: the first is noted for its size, weight and tab, the second, beneath it, for nothing. -/
theorem notesOn_emit_label :
    let stock : Stock := ⟨.ofNat 50, .ofNat 25, 203, .ofNat 2, by decide, by decide, by decide, by decide⟩
    let es : List Element :=
      [{ id := 1, position := ⟨10, 10⟩, zOrder := 1, rotation := .deg90, content := "a\tb"
         kind := .text ⟨"0", ⟨25, by decide⟩, true, .left⟩ },
        { id := 7, position := ⟨10, 40⟩, content := "9.99", kind := .price ⟨"0", ⟨48, by decide⟩, false, .left⟩ }]
    (es.map Element.id).Nodup ∧
      (List.Forall₂ (fun e read => e.kind.isField → ∀ a ∈ Language.epl.attributes,
          (emit .epl stock es).notesOn e.id a = if a.differs e read then 1 else 0)
        ((stacked es).filter Language.epl.expresses) (recover .epl (emit .epl stock es).program).elements) ∧
      Language.epl.attributes.map ((emit .epl stock es).notesOn 1) = [1, 1, 0, 0, 1] ∧
      Language.epl.attributes.map ((emit .epl stock es).notesOn 7) = [0, 0, 0, 0, 0] := by
  intro stock es
  have hids : (es.map Element.id).Nodup := by decide
  refine ⟨hids, notesOn_emit hids .epl stock, ?_, ?_⟩
  · simp only [notesOn_eq, List.map, Language.attributes]
    decide +kernel
  · simp only [notesOn_eq, List.map, Language.attributes]
    decide +kernel

end ThermalLabel

import ThermalLabel.Proofs.Epl.Redrawing
import ThermalLabel.Proofs.Tspl.Redrawing
import ThermalLabel.Proofs.Zpl.Redrawing

/-!
# Writing what was read

A program that was written is read as what its language keeps of each element (`recover_emit`). This is drawn without
any note, and by the line that drew the element itself, unless the far corner of a box lies beyond the largest word
(`draw_kept`). So the program is written again from the elements read from it (`emit_recover_emit`).
-/

namespace ThermalLabel

/-- **Reading back what was written**, in any language. -/
theorem recover_emit (l : Language) (stock : Stock) (es : List Element) :
    recover l (emit l stock es).program = .complete ⟨stock.widthDots, stock.heightDots⟩
      (Text.byteLength (emit l stock es).program.toList) ((stacked es).filterMap l.kept?) := by
  have hchars : (emit l stock es).program.toList =
      unlines (l.header stock ++ (stacked es).filterMap l.line? ++ l.footer) := String.toList_ofList
  rw [recover, hchars]
  cases l with
  | zpl => exact Zpl.recover_program stock es
  | epl => exact Epl.recover_program stock es
  | tspl => exact Tspl.recover_program stock es

/-! ## Drawing what is kept -/

/-- Drawing depends on neither the number nor the stacking order. -/
theorem draw_numbered (l : Language) (index : Nat) (e : Element) : l.draw (e.numbered index) = l.draw e := by
  cases l <;> rfl

/-- **What is kept of an element is drawn without notes**, and by the line of the element itself. -/
theorem draw_kept {l : Language} {e k : Element} (h : l.kept? e = some k) :
    ∃ line, l.draw k = .ok ⟨line, []⟩ ∧ (l = .zpl ∨ e.BoxFits → l.line? e = some line) := by
  cases l with
  | zpl =>
    obtain ⟨line, hk, he⟩ := Zpl.draw_kept h
    exact ⟨line, hk, fun _ => he⟩
  | epl =>
    obtain ⟨line, hk, he⟩ := Epl.draw_kept h
    exact ⟨line, hk, fun hfits => he (hfits.resolve_left (by decide))⟩
  | tspl =>
    obtain ⟨line, hk, he⟩ := Tspl.draw_kept h
    exact ⟨line, hk, fun hfits => he (hfits.resolve_left (by decide))⟩

/-- Every element that is read is drawn without notes. -/
theorem draw_of_mem_recovered {l : Language} {es : List Element} {e : Element}
    (h : e ∈ renumbered (es.filterMap l.kept?)) : ∃ line, l.draw e = .ok ⟨line, []⟩ := by
  obtain ⟨index, hindex, rfl⟩ := List.mem_mapIdx.1 h
  obtain ⟨x, -, hx⟩ := List.mem_filterMap.1 (List.getElem_mem hindex)
  obtain ⟨line, hdraw, -⟩ := draw_kept hx
  exact ⟨line, (draw_numbered l index _).trans hdraw⟩

/-- Unless boxes are cut off, the lines of the elements read are the lines of those written. -/
theorem filterMap_line?_recovered {l : Language} {es : List Element} (h : l = .zpl ∨ ∀ e ∈ es, e.BoxFits) :
    (renumbered (es.filterMap l.kept?)).filterMap l.line? = es.filterMap l.line? := by
  have hline : ∀ (index : Nat) (e : Element), l.line? (e.numbered index) = l.line? e := by
    intro index e
    rw [Language.line?, Language.line?, draw_numbered]
  rw [filterMap_renumbered hline, List.filterMap_filterMap]
  refine List.filterMap_congr fun e he => ?_
  cases hk : l.kept? e with
  | none =>
    have hnone := isSome_kept? l e
    rw [hk, Option.isSome_none] at hnone
    exact (Option.not_isSome_iff_eq_none.1 (by rw [← hnone]; exact Bool.false_ne_true)).symm
  | some k =>
    obtain ⟨line, hdraw, he'⟩ := draw_kept hk
    rw [Option.bind_some, he' (h.imp_right fun hfits => hfits e he), Language.line?, hdraw]

/-! ## Programs -/

/--
**Writing what was read.** The elements read from a written program are written without a report and none is left out.
The program is the same again, unless EPL2 or TSPL cut off a box.
-/
theorem emit_recover_emit (l : Language) (stock : Stock) (es : List Element) :
    let program := (emit l stock es).program
    let again := emit l stock (recover l program).elements
    again.diagnostics = [] ∧ again.skipped = 0 ∧ (l = .zpl ∨ (∀ e ∈ es, e.BoxFits) → again.program = program) := by
  intro program again
  have hread : (recover l program).elements = renumbered ((stacked es).filterMap l.kept?) := by
    rw [recover_emit]
    rfl
  have hagain : again = emit l stock (renumbered ((stacked es).filterMap l.kept?)) := congrArg (emit l stock) hread
  refine ⟨?_, ?_, ?_⟩
  · have hnotes : again.notes = [] := by
      rw [hagain, emit, stacked_renumbered]
      refine List.flatMap_eq_nil_iff.2 fun e he => ?_
      obtain ⟨line, hdraw⟩ := draw_of_mem_recovered he
      rw [Language.notes, hdraw]
      rfl
    rw [Emitted.diagnostics, hnotes]
    rfl
  · rw [hagain, emit, stacked_renumbered]
    refine List.countP_eq_zero.2 fun e he => ?_
    obtain ⟨line, hdraw⟩ := draw_of_mem_recovered he
    rw [Language.line?, hdraw]
    exact Bool.false_ne_true
  · intro hfits
    have hstacked : l = .zpl ∨ ∀ e ∈ stacked es, e.BoxFits :=
      hfits.imp_right fun h e he => h e (List.mem_mergeSort.1 he)
    rw [hagain, emit, stacked_renumbered, filterMap_line?_recovered hstacked]
    rfl

/-- A box whose far corner is at the largest word is written again. -/
theorem emit_recover_emit_of_fits :
    let stock : Stock := ⟨.ofNat 50, .ofNat 25, 203, .ofNat 2, by decide, by decide, by decide, by decide⟩
    let es : List Element :=
      [{ id := 1, position := ⟨4294967195, 20⟩, size := ⟨100, 60⟩, kind := .box ⟨⟨3, by decide⟩⟩ }]
    (∀ e ∈ es, e.BoxFits) ∧
      (emit .epl stock (recover .epl (emit .epl stock es).program).elements).program =
        (emit .epl stock es).program := by
  intro stock es
  have hfits : ∀ e ∈ es, e.BoxFits := by
    intro e he stroke _ _
    rw [List.mem_singleton.1 he]
    decide
  exact ⟨hfits, (emit_recover_emit .epl stock es).2.2 (.inr hfits)⟩

end ThermalLabel

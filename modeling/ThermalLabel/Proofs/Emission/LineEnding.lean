import ThermalLabel.Proofs.Emission.Account
import ThermalLabel.Proofs.Line.LineEnding
import ThermalLabel.Proofs.Zpl.LineEnding

/-!
# Line endings make no difference

EPL2 and TSPL read each line without the blanks around it, so any program is read alike with line feeds and with
carriage returns in front of them. In ZPL a line feed may be part of field data, but not in a program that was written:
all of its segments are written commands (`Zpl.command_of_mem_segments`), which hold no line break. **So nothing but
offsets changes** (`sameButSpans_crlf`).
-/

namespace ThermalLabel

open Text (withReturns movedOffset)

/-! ## Written ZPL -/

namespace Zpl

theorem command_of_mem_spanned {s : Segment} : ∀ {cs : List Command} {offset : Nat}, s ∈ spanned offset cs →
    ∃ c ∈ cs, ∃ span, s = .command c span
  | c :: cs, offset, h => by
    rcases List.mem_cons.1 h with rfl | h
    · exact ⟨c, List.mem_cons_self, _, rfl⟩
    · obtain ⟨d, hd, hs⟩ := command_of_mem_spanned h
      exact ⟨d, List.mem_cons_of_mem _ hd, hs⟩

/-- **The segments of written lines** are written commands. -/
theorem command_of_mem_segments {s : Segment} : ∀ {ls : List (List Char)} {offset : Nat},
    (∀ l ∈ ls, IsWrittenLine l) → s ∈ segments (tokens offset (unlines ls)) → ∃ c span, s = .command c span ∧ c.Writable
  | [], offset, _, hs => by
    rw [show unlines [] = [] from rfl, tokens, segments] at hs
    cases hs
  | l :: ls, offset, h, hs => by
    obtain ⟨cs, rfl, hcs⟩ := h l List.mem_cons_self
    rw [unlines_cons, List.append_assoc] at hs
    replace hs : s ∈ segments (tokens offset (commandsText cs ++ '\n' :: unlines ls)) := hs
    rw [segments_line _ _ hcs] at hs
    rcases List.mem_append.1 hs with hs | hs
    · obtain ⟨c, hc, span, rfl⟩ := command_of_mem_spanned hs
      exact ⟨c, span, rfl, hcs.1 c hc⟩
    · exact command_of_mem_segments (fun x hx => h x (List.mem_cons_of_mem _ hx)) hs

/-- Every line of a program is written. -/
theorem isWrittenLine_of_mem_lines (stock : Stock) (es : List Element) :
    ∀ l ∈ header stock ++ (stacked es).filterMap Language.zpl.line? ++ footer, IsWrittenLine l := by
  have hone : ∀ {c : Command}, c.Writable ∧ c.isMultiline = false → IsWrittenLine c.text :=
    fun {c} hc => ⟨[c], (commandsText_singleton c).symm, isCommandLine_singleton hc⟩
  refine List.forall_mem_append.2 ⟨List.forall_mem_append.2 ⟨fun l hl => ?_, fun l hl => ?_⟩, fun l hl => ?_⟩
  · obtain ⟨c, hc, rfl⟩ := List.mem_map.1 hl
    exact hone (writable_header stock c hc)
  · obtain ⟨e, -, he⟩ := List.mem_filterMap.1 hl
    exact isWrittenLine_of_line? he
  · obtain ⟨c, hc, rfl⟩ := List.mem_map.1 hl
    exact hone (writable_footer c hc)

section Written

variable {ls : List (List Char)} (h : ∀ l ∈ ls, IsWrittenLine l)

include h

/-- Written lines have no line breaks but line feeds. -/
theorem carriageReturn_not_mem_unlines : '\r' ∉ unlines ls := by
  intro hm
  obtain ⟨l, hl, hm⟩ := List.mem_flatMap.1 hm
  obtain ⟨cs, rfl, hcs⟩ := h l hl
  rcases List.mem_append.1 hm with hm | hm
  · obtain ⟨c, hc, hm⟩ := List.mem_flatMap.1 hm
    exact absurd (isLineBreak_of_mem_text (hcs.1 c hc) _ hm) (by decide)
  · exact absurd hm (by decide)

/-- **Written ZPL does the same with carriage returns.** -/
theorem events_written_withReturns :
    Language.zpl.events (withReturns (unlines ls)) =
      (Language.zpl.events (unlines ls)).map (Event.moved (movedOffset (unlines ls))) := by
  refine events_withReturns (carriageReturn_not_mem_unlines h) (fun s hs => ?_) {}
  obtain ⟨c, span, rfl, hc⟩ := command_of_mem_segments h hs
  exact fun hm => absurd (hc.body _ hm) (by decide)

end Written

end Zpl

/-! ## Programs -/

/-- A program that does the same with carriage returns is recovered as the same. -/
theorem sameButSpans_of_events {l : Language} {program : String}
    (h : l.events (withReturns program.toList) =
      (l.events program.toList).map (Event.moved (movedOffset program.toList))) :
    (recover l program).SameButSpans (movedOffset program.toList) (recover l (Text.crlf program)) := by
  have hmoved : recover l (Text.crlf program) = (recover l program).moved (movedOffset program.toList) := by
    rw [recover_eq, recover_eq, Text.crlf, String.toList_ofList, Language.assembly, h]
    exact assemble_moved (Text.movedOffset_zero _) (Text.movedOffset_end _) l _
  rw [hmoved]
  exact Recovered.sameButSpans_moved _ _

/--
**Line endings make no difference.** Carriage returns in front of the line feeds change neither what is recovered from a
program in EPL2 or TSPL, nor what is recovered from a written program in ZPL: the elements, the page, the number of
commands skipped and the reports are the same, but for the spans of these.
-/
theorem sameButSpans_crlf :
    (∀ program : String, (recover .epl program).SameButSpans (movedOffset program.toList)
      (recover .epl (Text.crlf program))) ∧
    (∀ program : String, (recover .tspl program).SameButSpans (movedOffset program.toList)
      (recover .tspl (Text.crlf program))) ∧
    ∀ (stock : Stock) (es : List Element),
      let program := (emit .zpl stock es).program
      (recover .zpl program).SameButSpans (movedOffset program.toList) (recover .zpl (Text.crlf program)) := by
  refine ⟨fun program => ?_, fun program => ?_, fun stock es => ?_⟩
  · exact sameButSpans_of_events (Language.events_withReturns (by decide) program.toList)
  · exact sameButSpans_of_events (Language.events_withReturns (by decide) program.toList)
  · refine sameButSpans_of_events ?_
    rw [emit, String.toList_ofList]
    exact Zpl.events_written_withReturns (Zpl.isWrittenLine_of_mem_lines stock es)

/-- In ZPL that was not written so, field data may go on over a line feed, and then holds the carriage return too. -/
example : (recover .zpl (Text.crlf "^FO1,2^FDa\nb^FS")).elements ≠ (recover .zpl "^FO1,2^FDa\nb^FS").elements := by
  decide +kernel

end ThermalLabel

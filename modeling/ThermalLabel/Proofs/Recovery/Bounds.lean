import ThermalLabel.Proofs.Line.Cut
import ThermalLabel.Proofs.Line.Locality
import ThermalLabel.Proofs.Recovery.Report
import ThermalLabel.Proofs.Zpl.Scan
import ThermalLabel.Proofs.Zpl.Turn

/-!
# Nothing is read out of range

A program is read in units, segments or lines, which tile it (`Language.tiled_spans`), so that their spans are slices of
it in order (`Language.ascending_spans`). Each
event is about one unit, and the events of the units follow one another (`Language.spannedBy_events`), so that the
reports follow one another too and those of different units do not overlap. With the checked scanners this gives **that
reading fails nowhere and reports nothing out of range** (`reads_in_bounds`), whatever the program.
-/

namespace ThermalLabel

/-! ## Units -/

/-- The spans of the segments or lines in which a program is read. -/
def Language.spans : Language → List Char → List Span
  | .zpl, program => (Zpl.segments (Zpl.tokens 0 program)).map Zpl.Segment.span
  | .epl, program | .tspl, program => (lines program).map Line.span

/-- **The units tile the program.** -/
theorem Language.tiled_spans (l : Language) (program : List Char) : Text.Tiled [] program (l.spans program) := by
  cases l with
  | zpl => exact Zpl.tiled_segments program
  | epl | tspl => exact tiled_lines program

/-- **Units stand in the order of the program**, each of them a slice. -/
theorem Language.ascending_spans (l : Language) (program : List Char) : Text.Ascending program 0 (l.spans program) :=
  (l.tiled_spans program).ascending

/-- The events are those of units with these spans, one unit after the other. -/
inductive SpannedBy : List Event → List Span → Prop
  | nil : SpannedBy [] []
  | cons {s : Span} {unit es : List Event} {ss : List Span} :
      (∀ e ∈ unit, e.span = s) → SpannedBy es ss → SpannedBy (unit ++ es) (s :: ss)

theorem Line.span_of_mem_events (line : Line) (steps : Except Cause (List Step)) :
    ∀ e ∈ line.events steps, e.span = line.span := by
  intro e he
  cases steps with
  | ok ss =>
    obtain ⟨s, -, rfl⟩ := List.mem_map.1 he
    rfl
  | error cause =>
    rw [List.mem_singleton.1 he]
    rfl

theorem spannedBy_lines (interpret : List Char → Except Cause (List Step)) (ls : List Line) :
    SpannedBy (ls.flatMap fun line => line.events (interpret line.text)) (ls.map Line.span) := by
  induction ls with
  | nil => exact .nil
  | cons line ls ih => exact .cons (line.span_of_mem_events _) ih

theorem Zpl.spannedBy_events (f : Zpl.Format) (ss : List Zpl.Segment) :
    SpannedBy (Zpl.events f ss) (ss.map Zpl.Segment.span) := by
  induction ss generalizing f with
  | nil => exact .nil
  | cons s ss ih =>
    refine .cons ?_ (ih _)
    intro e he
    cases s with
    | bare leader span | stray text span =>
      rw [List.mem_singleton.1 he]
      rfl
    | command c span =>
      rcases List.mem_append.1 he with he | he
      · obtain ⟨cause, -, rfl⟩ := List.mem_map.1 he
        rfl
      · rw [List.mem_singleton.1 he]
        rfl

theorem Language.spannedBy_events (l : Language) (program : List Char) :
    SpannedBy (l.events program) (l.spans program) := by
  cases l with
  | zpl => exact Zpl.spannedBy_events _ _
  | epl => exact spannedBy_lines _ _
  | tspl => exact spannedBy_lines _ _

namespace SpannedBy

variable {es : List Event} {ss : List Span} (h : SpannedBy es ss)
include h

/-- An event is about a unit. -/
theorem mem_spans : ∀ e ∈ es, e.span ∈ ss := by
  induction h with
  | nil =>
    intro e he
    cases he
  | cons hunit _ ih =>
    intro e he
    rcases List.mem_append.1 he with he | he
    · rw [hunit e he]
      exact List.mem_cons_self
    · exact List.mem_cons_of_mem _ (ih e he)

/-- **Two events** are about the same unit, or the second is about one behind that of the first. -/
theorem pairwise (hss : ss.Pairwise fun a b => a.stop ≤ b.start) :
    (es.map Event.span).Pairwise fun a b => a = b ∨ a.stop ≤ b.start := by
  induction h with
  | nil => exact .nil
  | @cons s unit es ss hunit hes ih =>
    obtain ⟨hs, hss⟩ := List.pairwise_cons.1 hss
    rw [List.map_append, List.pairwise_append]
    refine ⟨?_, ih hss, ?_⟩
    · refine List.pairwise_of_forall_mem_list fun a ha b hb => .inl ?_
      obtain ⟨e, he, rfl⟩ := List.mem_map.1 ha
      obtain ⟨e', he', rfl⟩ := List.mem_map.1 hb
      rw [hunit e he, hunit e' he']
    · intro a ha b hb
      obtain ⟨e, he, rfl⟩ := List.mem_map.1 ha
      obtain ⟨e', he', rfl⟩ := List.mem_map.1 hb
      rw [hunit e he]
      exact .inr (hs _ (hes.mem_spans e' he'))

end SpannedBy

/-- A span that is another one again or behind it does not go backwards. -/
theorem Span.le_of_follows {a b : Span} (h : a = b ∨ a.stop ≤ b.start) (ha : a.start ≤ a.stop) (hb : b.start ≤ b.stop) :
    a.start ≤ b.start ∧ a.stop ≤ b.stop := by
  rcases h with rfl | h
  · exact ⟨Nat.le_refl _, Nat.le_refl _⟩
  · constructor
    · omega
    · omega

/-! ## Findings -/

section Findings

variable {l : Language} {program : List Char}

/-- A finding is about the bytes of a unit. -/
theorem Language.span_mem_spans {f : Finding} (h : f ∈ (l.assembly program).findings) : f.span ∈ l.spans program := by
  have hmem := (Assembly.sublist_spans (l.events program) { language := l }).subset (List.mem_map_of_mem h)
  obtain ⟨e, he, hspan⟩ := List.mem_map.1 hmem
  rw [← hspan]
  exact (l.spannedBy_events program).mem_spans e he

/-- **Findings do not go backwards**, and those about different units do not overlap. -/
theorem Language.pairwise_findings (l : Language) (program : List Char) :
    (l.assembly program).findings.Pairwise fun f g => f.span = g.span ∨ f.span.stop ≤ g.span.start := by
  have hevents := (l.spannedBy_events program).pairwise (l.ascending_spans program).pairwise
  exact List.pairwise_map.1 (hevents.sublist (Assembly.sublist_spans (l.events program) { language := l }))

end Findings

/-! ## The reader of lines -/

/-- What tells the steps of a line, in the languages that are read line by line. -/
def Language.lineReader? : Language → Option (List Char → Except Cause (List Step))
  | .zpl => none
  | .epl => some Epl.interpret
  | .tspl => some Tspl.interpret

theorem Language.events_of_lineReader {l : Language} {interpret : List Char → Except Cause (List Step)}
    (h : l.lineReader? = some interpret) : l ≠ .zpl ∧ (∀ text, Yields LineSteps (interpret text)) ∧
      ∀ program, l.events program = (lines program).flatMap fun line => line.events (interpret line.text) := by
  cases l with
  | zpl => cases h
  | epl =>
    obtain rfl := Option.some.inj h
    exact ⟨nofun, Epl.yields_interpret, fun _ => rfl⟩
  | tspl =>
    obtain rfl := Option.some.inj h
    exact ⟨nofun, Tspl.yields_interpret, fun _ => rfl⟩

/-- **A finding is about a line** that cannot be read. -/
theorem Language.exists_line {l : Language} {interpret : List Char → Except Cause (List Step)}
    (h : l.lineReader? = some interpret) {program : List Char} {f : Finding}
    (hf : f ∈ (l.assembly program).findings) :
    ∃ line ∈ lines program, interpret line.text = .error f.cause ∧ f.span = line.span := by
  obtain ⟨hl, hyields, hevents⟩ := Language.events_of_lineReader h
  have hrefusal := (Language.settled_assembly hl program).refusals f hf
  rcases Assembly.reports_of_mem hf with hf | ⟨e, he, n, hreports⟩
  · cases hf
  · rw [hevents] at he
    obtain ⟨line, hline, he⟩ := List.mem_flatMap.1 he
    refine ⟨line, hline, ?_, hreports.span_eq.trans (line.span_of_mem_events _ e he)⟩
    have hsteps := hyields line.text
    cases hread : interpret line.text with
    | error cause =>
      rw [hread] at he
      obtain rfl := List.mem_singleton.1 he
      cases hreports with
      | skip cause span => rfl
    | ok ss =>
      -- the steps of a line that is read skip nothing, and its content has a place
      rw [hread] at he hsteps
      obtain ⟨s, hs, rfl⟩ := List.mem_map.1 he
      exfalso
      cases hreports with
      | unplaced c span => exact hrefusal
      | skip cause span =>
        cases hsteps with
        | draw place hc | page width height | setup => simp [drawAt] at hs

/-! ## Reading -/

/-- What the scanner of a language reports, if no cut and no span fails. -/
def Language.scan? : Language → List Char → Option (List Event)
  | .zpl, program => Zpl.scan? program
  | .epl, program => scanLines? Epl.interpret? (lines program)
  | .tspl, program => scanLines? (fun text => some (Tspl.interpret text)) (lines program)

theorem Language.scan?_eq (l : Language) (program : List Char) : l.scan? program = some (l.events program) := by
  cases l with
  | zpl => exact Zpl.scan?_eq program
  | epl => exact scanLines?_eq Epl.interpret?_eq _
  | tspl => exact scanLines?_eq (fun _ => rfl) _

/-- What is reported keeps within a program and follows its order. -/
structure Recovered.InBounds (r : Recovered) (l : Language) (program : List Char) : Prop where
  /-- Every report has a span between characters of the program. -/
  spans : ∀ d ∈ r.diagnostics, ∃ s, d.span = some s ∧ s.start ≤ s.stop ∧ s.stop ≤ Text.byteLength program ∧
    Text.CharBoundary program s.start ∧ Text.CharBoundary program s.stop
  /-- Spans never go backwards, and two of them are the same or do not overlap. -/
  order : (r.diagnostics.filter (·.id ≠ "LBL1104")).Pairwise fun d d' => ∃ s s', d.span = some s ∧ d'.span = some s' ∧
    s.start ≤ s'.start ∧ s.stop ≤ s'.stop ∧ (s = s' ∨ s.stop ≤ s'.start)
  /-- In EPL2 and TSPL a report is about a line that cannot be read, and its span is the line without outer blanks. -/
  lines : ∀ interpret, l.lineReader? = some interpret → ∀ d ∈ r.diagnostics, d.id ≠ "LBL1104" →
    ∃ (line : Line) (cause : Cause), line.Located program ∧ Text.slice? program line.span = some line.text ∧
      interpret line.text = .error cause ∧ d = Finding.diagnostic ⟨cause, line.span⟩

theorem Language.spans_in_bounds (l : Language) (program : String) : ∀ d ∈ (recover l program).diagnostics,
    ∃ s, d.span = some s ∧ (Text.slice? program.toList s).isSome := by
  intro d hd
  rw [recover_eq] at hd
  rcases Assembly.mem_diagnostics hd with ⟨f, hf, rfl⟩ | rfl
  · exact ⟨f.span, rfl, ((l.ascending_spans _).forall_mem f.span (Language.span_mem_spans hf)).2⟩
  · refine ⟨_, rfl, Option.isSome_iff_exists.2 ⟨program.toList, Text.slice?_eq_some_iff.2 ⟨[], [], ?_, ?_⟩⟩⟩
    · rw [List.append_nil]
      rfl
    · rw [Text.byteLength_nil, Nat.zero_add]

/--
**Reading keeps within the program.** Whatever the program, the scanner that checks its cuts and spans does not fail,
and it reports what is recovered. All that is reported is within the program and in its order.
-/
theorem reads_in_bounds (l : Language) (program : String) :
    (∃ es, l.scan? program.toList = some es ∧
      recover l program = assemble l (Text.byteLength program.toList) es) ∧
    (recover l program).InBounds l program.toList := by
  refine ⟨⟨_, l.scan?_eq program.toList, recover_eq l program⟩, ?_⟩
  constructor
  case spans =>
    intro d hd
    obtain ⟨s, hs, hslice⟩ := l.spans_in_bounds program d hd
    obtain ⟨hle, hstart, hstop⟩ := Text.isSome_slice?_iff.1 hslice
    exact ⟨s, hs, hle, hstop.le_byteLength, hstart, hstop⟩
  case order =>
    have hslices : ∀ f ∈ (l.assembly program.toList).findings, f.span.start ≤ f.span.stop := by
      intro f hf
      have hslice := ((l.ascending_spans _).forall_mem f.span (Language.span_mem_spans hf)).2
      exact (Text.isSome_slice?_iff.1 hslice).1
    rw [recover_eq, Assembly.filter_diagnostics (l.accounts_assembly program.toList).ne_nothing, List.pairwise_map]
    refine (l.pairwise_findings program.toList).imp_of_mem ?_
    intro f g hf hg hfg
    obtain ⟨hstart, hstop⟩ := Span.le_of_follows hfg (hslices f hf) (hslices g hg)
    exact ⟨f.span, g.span, rfl, rfl, hstart, hstop, hfg⟩
  case lines =>
    intro interpret hinterpret d hd hid
    rw [recover_eq] at hd
    rcases Assembly.mem_diagnostics hd with ⟨f, hf, rfl⟩ | rfl
    · obtain ⟨line, hline, hcause, hspan⟩ := Language.exists_line hinterpret hf
      have hlocated := located_lines program.toList line hline
      refine ⟨line, f.cause, hlocated, hlocated.slice?_span, hcause, ?_⟩
      rw [← hspan]
    · exact absurd rfl hid

end ThermalLabel

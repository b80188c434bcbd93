import Mathlib.Data.List.Forall2
import ThermalLabel.Proofs.Recovery.Bounds

/-!
# What becomes of each unit

A program is read in units, the segments of ZPL and the lines of EPL2 and TSPL. The scanner reports one thing of a unit,
or a position with the content at it, and perhaps notes about its data (`Language.regular_units`).

* **A unit has exactly one outcome** (`Assembly.existsUnique_settles`): it is accepted and nothing is skipped, or it is
  skipped, which counts one and leaves one finding about its bytes.
* So what is skipped are as many units (`Assembly.skipped_foldl_afterUnit`), and **no input is dropped unseen**
  (`nothing_unseen`): all that is not blank is in a unit, and each unit has an outcome.
-/

namespace ThermalLabel

/-! ## Units -/

/-- A part of a program that is read as a whole, and what the scanner reports of it. -/
structure ProgramUnit where
  span : Span
  events : List Event
  deriving DecidableEq, Repr

/-- The unit of a segment that is obeyed in a state. -/
def Zpl.Segment.unit (f : Zpl.Format) (s : Zpl.Segment) : ProgramUnit := ⟨s.span, (s.events f).1⟩

/-- The units of segments, each obeyed in the state that those before it leave. -/
def Zpl.units (f : Zpl.Format) : List Zpl.Segment → List ProgramUnit
  | [] => []
  | s :: ss => s.unit f :: Zpl.units (s.events f).2 ss

/-- The unit of a line. -/
def Line.unit (interpret : List Char → Except Cause (List Step)) (line : Line) : ProgramUnit :=
  ⟨line.span, line.events (interpret line.text)⟩

/-- The units in which a program is read. -/
def Language.units : Language → List Char → List ProgramUnit
  | .zpl, program => Zpl.units {} (Zpl.segments (Zpl.tokens 0 program))
  | .epl, program => (lines program).map (Line.unit Epl.interpret)
  | .tspl, program => (lines program).map (Line.unit Tspl.interpret)

/-- Each unit is that of a segment, in some state. -/
theorem Zpl.forall₂_units {P : Zpl.Segment → Prop} : ∀ (f : Zpl.Format) {ss : List Zpl.Segment}, (∀ s ∈ ss, P s) →
    List.Forall₂ (fun u s => (∃ g, u = s.unit g) ∧ P s) (Zpl.units f ss) ss
  | _, [], _ => .nil
  | f, s :: ss, h => by
    obtain ⟨hs, hss⟩ := List.forall_mem_cons.1 h
    exact .cons ⟨⟨f, rfl⟩, hs⟩ (Zpl.forall₂_units _ hss)

theorem Zpl.map_span_units : ∀ (f : Zpl.Format) (ss : List Zpl.Segment),
    (Zpl.units f ss).map ProgramUnit.span = ss.map Zpl.Segment.span
  | _, [] => rfl
  | f, s :: ss => by
    rw [Zpl.units, List.map_cons, List.map_cons, Zpl.map_span_units]
    rfl

theorem Zpl.flatMap_events_units : ∀ (f : Zpl.Format) (ss : List Zpl.Segment),
    (Zpl.units f ss).flatMap ProgramUnit.events = Zpl.events f ss
  | _, [] => rfl
  | f, s :: ss => by
    rw [Zpl.units, List.flatMap_cons, Zpl.flatMap_events_units]
    rfl

theorem Line.map_span_unit (interpret : List Char → Except Cause (List Step)) (ls : List Line) :
    (ls.map (Line.unit interpret)).map ProgramUnit.span = ls.map Line.span := by
  rw [List.map_map]
  rfl

section Language

variable (l : Language) (program : List Char)

theorem Language.map_span_units : (l.units program).map ProgramUnit.span = l.spans program := by
  cases l with
  | zpl => exact Zpl.map_span_units _ _
  | epl | tspl => exact Line.map_span_unit _ _

/-- **What is reported of a program** is what is reported of its units. -/
theorem Language.flatMap_events_units : (l.units program).flatMap ProgramUnit.events = l.events program := by
  cases l with
  | zpl => exact Zpl.flatMap_events_units _ _
  | epl | tspl => exact List.flatMap_map _ _ _

end Language

/-! ## What is reported of one unit -/

/-- The step that an event is. -/
@[simp] def Event.step? : Event → Option Step
  | .step s _ => some s
  | .note _ => none

/-- The finding that an event notes. -/
@[simp] def Event.note? : Event → Option Finding
  | .step _ _ => none
  | .note f => some f

namespace ProgramUnit

variable (u : ProgramUnit)

/-- What a unit does. -/
def steps : List Step := u.events.filterMap Event.step?

/-- What is noted about a unit. -/
def notes : List Finding := u.events.filterMap Event.note?

/-- The steps of a unit: one, or a position and the content at it. -/
inductive IsSteps : List Step → Prop
  | setup : IsSteps [.setup]
  | page (width height : Option UInt32) : IsSteps [.page width height]
  | position (place : Point) : IsSteps [.position place]
  | content (c : Content) : IsSteps [.content c]
  | drawn (place : Point) (c : Content) : IsSteps [.position place, .content c]
  | skip {cause : Cause} : cause.IsRefusal → IsSteps [.skip cause]

/-- What is reported of a unit: notes about its data, then its steps, all about its bytes. -/
structure Regular : Prop where
  events : u.events = u.notes.map Event.note ++ u.steps.map (Event.step · u.span)
  notes : ∀ f ∈ u.notes, f.span = u.span ∧ f.cause.IsNote
  steps : IsSteps u.steps

/-- Notes and steps about the same bytes are those of the unit that they make up. -/
theorem regular_of (span : Span) (notes : List Finding) (steps : List Step)
    (hnotes : ∀ f ∈ notes, f.span = span ∧ f.cause.IsNote) (hsteps : IsSteps steps) :
    Regular ⟨span, notes.map Event.note ++ steps.map (Event.step · span)⟩ := by
  have hn : ProgramUnit.notes ⟨span, notes.map Event.note ++ steps.map (Event.step · span)⟩ = notes := by
    simp [ProgramUnit.notes, List.filterMap_append, List.filterMap_map, Function.comp_def]
  have hs : ProgramUnit.steps ⟨span, notes.map Event.note ++ steps.map (Event.step · span)⟩ = steps := by
    simp [ProgramUnit.steps, List.filterMap_append, List.filterMap_map, Function.comp_def]
  constructor
  · rw [hn, hs]
  · rw [hn]
    exact hnotes
  · rw [hs]
    exact hsteps

end ProgramUnit

open ProgramUnit in
theorem Line.regular_unit {interpret : List Char → Except Cause (List Step)}
    (h : ∀ text, Yields LineSteps (interpret text)) (line : Line) : (line.unit interpret).Regular := by
  have hsteps := h line.text
  unfold Line.unit Line.events
  cases hread : interpret line.text with
  | error cause =>
    rw [hread] at hsteps
    exact regular_of line.span [] [.skip cause] nofun (.skip hsteps)
  | ok ss =>
    rw [hread] at hsteps
    refine regular_of line.span [] ss nofun ?_
    cases hsteps with
    | draw place _ => exact .drawn place _
    | page width height => exact .page width height
    | setup => exact .setup

open ProgramUnit in
theorem Zpl.regular_unit (f : Zpl.Format) (s : Zpl.Segment) : (s.unit f).Regular := by
  unfold Zpl.Segment.unit
  cases s with
  | bare leader span | stray text span => exact regular_of span [] [_] nofun (.skip trivial)
  | command c span =>
    rcases Zpl.obey_cases f c with hperformed | ⟨cause, hcause, hskip⟩
    · have hnotes : ∀ x ∈ (f.obey c).notes.map fun cause => (⟨cause, span⟩ : Finding),
          x.span = span ∧ x.cause.IsNote := by
        intro x hx
        obtain ⟨cause, hcause, rfl⟩ := List.mem_map.1 hx
        exact ⟨rfl, hperformed.notes cause hcause⟩
      have hsteps : IsSteps [(f.obey c).step] := by
        have hstep := hperformed.step
        cases hs : (f.obey c).step with
        | skip cause =>
          rw [hs] at hstep
          exact hstep.elim
        | position place => exact .position place
        | content content => exact .content content
        | page width height => exact .page width height
        | setup => exact .setup
      have hregular := regular_of span _ _ hnotes hsteps
      rw [List.map_map] at hregular
      exact hregular
    · rw [Zpl.Segment.events, hskip]
      exact regular_of span [] [.skip cause] nofun (.skip hcause)

theorem Zpl.regular_units : ∀ (f : Zpl.Format) (ss : List Zpl.Segment), ∀ u ∈ Zpl.units f ss, u.Regular
  | _, [], u, hu => (List.not_mem_nil hu).elim
  | f, s :: ss, u, hu => by
    rcases List.mem_cons.1 hu with rfl | hu
    · exact Zpl.regular_unit f s
    · exact Zpl.regular_units _ ss u hu

/-- **Every unit does one thing**, or draws at a place of its own. -/
theorem Language.regular_units (l : Language) (program : List Char) : ∀ u ∈ l.units program, u.Regular := by
  intro u hu
  cases l with
  | zpl => exact Zpl.regular_units _ _ u hu
  | epl =>
    obtain ⟨line, -, rfl⟩ := List.mem_map.1 hu
    exact line.regular_unit Epl.yields_interpret
  | tspl =>
    obtain ⟨line, -, rfl⟩ := List.mem_map.1 hu
    exact line.regular_unit Tspl.yields_interpret

/-! ## Verdicts -/

/-- What becomes of a unit. -/
inductive Verdict where
  | accepted
  | skipped (cause : Cause)
  deriving DecidableEq, Repr

namespace Verdict

/-- Does the unit count as skipped? -/
@[simp] def isSkipped : Verdict → Bool
  | accepted => false
  | skipped _ => true

/-- What a verdict leaves in the findings of a program. -/
@[simp] def findings (span : Span) : Verdict → List Finding
  | accepted => []
  | skipped cause => [⟨cause, span⟩]

/-- The verdict on steps: content needs a position, one that waits or its own. -/
inductive On (l : Language) (waits : Bool) : List Step → Verdict → Prop
  | setup : On l waits [.setup] accepted
  | page (width height : Option UInt32) : On l waits [.page width height] accepted
  | position (place : Point) : On l waits [.position place] accepted
  | content (c : Content) : waits = true → On l waits [.content c] accepted
  | drawn (place : Point) (c : Content) : On l waits [.position place, .content c] accepted
  | unplaced (c : Content) : waits = false → On l waits [.content c] (skipped (.unplaced l))
  | refused {cause : Cause} : cause.IsRefusal → On l waits [.skip cause] (skipped cause)

/-- The verdict on steps, computed. -/
def of (l : Language) (waits : Bool) : List Step → Verdict
  | [.content _] => if waits then accepted else skipped (.unplaced l)
  | [.skip cause] => skipped cause
  | _ => accepted

theorem on_of {steps : List Step} (h : ProgramUnit.IsSteps steps) (l : Language) (waits : Bool) :
    On l waits steps (of l waits steps) := by
  cases h with
  | setup => exact .setup
  | page width height => exact .page width height
  | position place => exact .position place
  | drawn place c => exact .drawn place c
  | skip hcause => exact .refused hcause
  | content c =>
    cases waits with
    | true => exact .content c rfl
    | false => exact .unplaced c rfl

/-- There is one verdict only. -/
theorem On.eq {l : Language} {waits : Bool} {steps : List Step} {v : Verdict} (h : On l waits steps v) :
    v = of l waits steps := by
  cases h with
  | setup | page width height | position place | drawn place c | refused hcause => rfl
  | content c hwaits =>
    subst hwaits
    rfl
  | unplaced c hwaits =>
    subst hwaits
    rfl

end Verdict

/-! ## Outcomes -/

namespace Assembly

/-- The assembly after a unit. -/
def afterUnit (a : Assembly) (u : ProgramUnit) : Assembly := u.events.foldl feed a

/-- The verdict on a unit in the state before it. -/
def verdict (a : Assembly) (u : ProgramUnit) : Verdict := .of a.language a.position.isSome u.steps

/-- The verdicts on units, one after the other. -/
def verdicts (a : Assembly) : List ProgramUnit → List Verdict
  | [] => []
  | u :: us => a.verdict u :: (a.afterUnit u).verdicts us

/-- A unit comes to a verdict, which alone settles what is skipped and found, notes apart. -/
structure Settles (a : Assembly) (u : ProgramUnit) (v : Verdict) : Prop where
  verdict : Verdict.On a.language a.position.isSome u.steps v
  skipped : (a.afterUnit u).skipped = a.skipped + if v.isSkipped then 1 else 0
  findings : (a.afterUnit u).findings = a.findings ++ u.notes ++ v.findings u.span

/-- Notes only add findings. -/
theorem foldl_feed_notes (fs : List Finding) : ∀ a : Assembly,
    (fs.map Event.note).foldl feed a = { a with findings := a.findings ++ fs } := by
  induction fs with
  | nil =>
    intro a
    rw [List.append_nil]
    rfl
  | cons f fs ih =>
    intro a
    rw [List.map_cons, List.foldl_cons, ih]
    simp only [feed, List.append_assoc, List.singleton_append]

/-- Steps skip and find what the verdict on them says. -/
theorem foldl_feed_steps {a : Assembly} {steps : List Step} {v : Verdict}
    (h : Verdict.On a.language a.position.isSome steps v) (span : Span) :
    ((steps.map (Event.step · span)).foldl feed a).skipped = a.skipped + (if v.isSkipped then 1 else 0) ∧
      ((steps.map (Event.step · span)).foldl feed a).findings = a.findings ++ v.findings span := by
  cases h with
  | setup | page width height | position place | drawn place c => simp [feed, draw]
  | refused hcause => simp [feed, skip]
  | content c hwaits =>
    obtain ⟨place, hplace⟩ := Option.isSome_iff_exists.1 hwaits
    simp [feed, draw, hplace]
  | unplaced c hwaits =>
    have hplace : a.position = none := Option.isNone_iff_eq_none.1 (Option.isSome_eq_false_iff.1 hwaits)
    simp [feed, draw, skip, hplace]

/-- **A unit is settled by the verdict on it.** -/
theorem settles_verdict (a : Assembly) {u : ProgramUnit} (h : u.Regular) : a.Settles u (a.verdict u) := by
  have hverdict := Verdict.on_of h.steps a.language a.position.isSome
  have hafter : a.afterUnit u =
      (u.steps.map (Event.step · u.span)).foldl feed { a with findings := a.findings ++ u.notes } := by
    rw [afterUnit, h.events, List.foldl_append, foldl_feed_notes]
  -- notes change neither the language nor the position that the verdict rests on
  have hsteps := foldl_feed_steps (a := { a with findings := a.findings ++ u.notes }) hverdict u.span
  rw [← hafter] at hsteps
  exact ⟨hverdict, hsteps.1, hsteps.2⟩

/-- **A unit has exactly one outcome.** -/
theorem existsUnique_settles (a : Assembly) {u : ProgramUnit} (h : u.Regular) : ∃! v, a.Settles u v :=
  ⟨a.verdict u, a.settles_verdict h, fun _ hv => hv.verdict.eq⟩

/-- **What is skipped are as many units.** -/
theorem skipped_foldl_afterUnit : ∀ {us : List ProgramUnit} (a : Assembly), (∀ u ∈ us, u.Regular) →
    (us.foldl afterUnit a).skipped = a.skipped + (a.verdicts us).countP Verdict.isSkipped
  | [], _, _ => rfl
  | u :: us, a, h => by
    obtain ⟨hu, hus⟩ := List.forall_mem_cons.1 h
    rw [List.foldl_cons, skipped_foldl_afterUnit (a.afterUnit u) hus, (a.settles_verdict hu).skipped, verdicts,
      List.countP_cons]
    omega

end Assembly

/-- A program is assembled unit by unit. -/
theorem Language.assembly_eq_afterUnit (l : Language) (program : List Char) :
    l.assembly program = (l.units program).foldl Assembly.afterUnit { language := l } := by
  rw [Language.assembly, ← l.flatMap_events_units, List.foldl_flatMap]
  rfl

/-! ## All of a program -/

/-- The verdicts on the units of a program. -/
def Language.verdicts (l : Language) (program : List Char) : List Verdict :=
  Assembly.verdicts { language := l } (l.units program)

/-- Nothing of a program is dropped unseen: what its units are, and what becomes of them. -/
structure NothingUnseen (l : Language) (program : String) : Prop where
  /-- What is reported is reported of the units, one after the other. -/
  events : (l.units program.toList).flatMap ProgramUnit.events = l.events program.toList
  /-- A unit is a part of the program. -/
  slices : ∀ u ∈ l.units program.toList, (Text.slice? program.toList u.span).isSome
  /-- Units stand in increasing order and do not overlap. -/
  order : (l.units program.toList).Pairwise fun u v => u.span.start < v.span.start ∧ u.span.stop ≤ v.span.start
  /-- Each character that is not blank is in exactly one unit. -/
  covered : ∀ before c after, program.toList = before ++ c :: after → Text.isBlank c = false →
    (l.units program.toList).countP (·.span.holds (Text.byteLength before) c) = 1
  /-- In ZPL a unit is a command, a bare leader or a stray run, each as far as it goes. -/
  segments : l = .zpl → List.Forall₂ (fun u s => (∃ f, u = s.unit f) ∧ s.Located program.toList)
    (l.units program.toList) (Zpl.segments (Zpl.tokens 0 program.toList))
  /-- Each turn of the loop over ZPL tokens takes at least one of them, so that none is left in the end. -/
  loop : (∀ t ts, ∃ taken, taken ≠ [] ∧ t :: ts = taken ++ (Zpl.turn t ts).2) ∧
    ∀ n, (Zpl.tokens 0 program.toList).length ≤ n →
      Zpl.turns n (Zpl.tokens 0 program.toList) = (Zpl.segments (Zpl.tokens 0 program.toList), [])
  /-- In EPL2 and TSPL the units are the lines that are not blank, without the blanks around them. -/
  eachLine : ∀ interpret, l.lineReader? = some interpret →
    l.units program.toList = (lines program.toList).map (Line.unit interpret) ∧
    (∀ line ∈ lines program.toList, line.Located program.toList) ∧
    (lines program.toList).map Line.text = ((Text.splitOn '\n' program.toList).map Text.trim).filter (· ≠ [])
  /-- A unit has exactly one outcome: it is accepted, or it is skipped and counts one. -/
  outcomes : ∀ before u after, l.units program.toList = before ++ u :: after →
    ∃! v, (before.foldl Assembly.afterUnit { language := l }).Settles u v
  /-- What is skipped are as many units. -/
  skipped : (recover l program).skipped = (l.verdicts program.toList).countP Verdict.isSkipped

/--
**No input is dropped unseen.** Every program in every language is cut into units that hold all of it that is not blank,
and each unit is accepted or skipped.
-/
theorem nothing_unseen (l : Language) (program : String) : NothingUnseen l program := by
  have htiled := l.tiled_spans program.toList
  rw [← l.map_span_units] at htiled
  constructor
  case events => exact l.flatMap_events_units program.toList
  case slices =>
    intro u hu
    refine ((l.ascending_spans program.toList).forall_mem u.span ?_).2
    rw [← l.map_span_units]
    exact List.mem_map_of_mem hu
  case order => exact List.pairwise_map.1 htiled.pairwise
  case covered =>
    intro before c after hprogram hc
    have hone := htiled.countP_holds hprogram hc
    rw [Text.byteLength_nil, Nat.zero_add, List.countP_map] at hone
    exact hone
  case segments =>
    rintro rfl
    exact Zpl.forall₂_units {} (Zpl.located_segments program.toList)
  case loop =>
    refine ⟨fun t ts => ?_, fun n hn => Zpl.turns_eq hn⟩
    obtain ⟨taken, htaken⟩ := Zpl.suffix_turn t ts
    refine ⟨t :: taken, List.cons_ne_nil _ _, ?_⟩
    rw [List.cons_append, htaken]
  case eachLine =>
    intro interpret hinterpret
    refine ⟨?_, located_lines program.toList, text_lines program.toList⟩
    cases l with
    | zpl => cases hinterpret
    | epl | tspl =>
      obtain rfl := Option.some.inj hinterpret
      rfl
  case outcomes =>
    intro before u after hunits
    refine Assembly.existsUnique_settles _ (l.regular_units program.toList u ?_)
    rw [hunits]
    exact List.mem_append_right _ List.mem_cons_self
  case skipped =>
    have hskipped := Assembly.skipped_foldl_afterUnit { language := l } (l.regular_units program.toList)
    rw [recover_eq, Assembly.finish, l.assembly_eq_afterUnit, hskipped]
    exact Nat.zero_add _

/-- Two leaders and a stray run are three units that are skipped; the field in front of them is drawn. -/
example :
    (Language.zpl.verdicts "^FO1,2^FDa^^ ,b".toList).map Verdict.isSkipped = [false, false, true, true, true] := by
  decide +kernel

end ThermalLabel

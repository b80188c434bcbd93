import ThermalLabel.Proofs.Line.Steps
import ThermalLabel.Proofs.Zpl.Steps

/-!
# What is reported

An event leaves at most one finding, about its own bytes (`Assembly.feed_cases`), so the findings of a program stand in
the order of its events (`Assembly.sublist_spans`) and each is left by one of them (`Assembly.reports_of_mem`).

Whatever the program, scanners skip only commands and lines that are unknown or malformed, note only escapes in field
data that cannot be read (`Language.accountable_events`) and draw only recoverable elements (`recoverable_recovered`).
So what is skipped can be counted from the findings (`Language.accounts_assembly`).
-/

namespace ThermalLabel

/-! ## Findings of events -/

/-- The bytes that an event is about. -/
def Event.span : Event → Span
  | .step _ span => span
  | .note f => f.span

/-- The finding that an event leaves, and the number of things that it skips. -/
inductive Event.Reports (l : Language) : Event → Finding → Nat → Prop
  | skip (cause : Cause) (span : Span) : Reports l (.step (.skip cause) span) ⟨cause, span⟩ 1
  | note (f : Finding) : Reports l (.note f) f 0
  | unplaced (c : Content) (span : Span) : Reports l (.step (.content c) span) ⟨.unplaced l, span⟩ 1

theorem Event.Reports.span_eq {l : Language} {e : Event} {f : Finding} {n : Nat} (h : e.Reports l f n) :
    f.span = e.span := by
  cases h <;> rfl

namespace Assembly

/-- **One event** leaves the findings as they are and skips nothing, or adds the finding that it reports. -/
theorem feed_cases (a : Assembly) (e : Event) :
    ((a.feed e).findings = a.findings ∧ (a.feed e).skipped = a.skipped) ∨
      ∃ f n, e.Reports a.language f n ∧ (a.feed e).findings = a.findings ++ [f] ∧
        (a.feed e).skipped = a.skipped + n := by
  cases e with
  | note f => exact .inr ⟨f, 0, .note f, rfl, rfl⟩
  | step s span =>
    cases s with
    | position place | page width height | setup => exact .inl ⟨rfl, rfl⟩
    | skip cause => exact .inr ⟨⟨cause, span⟩, 1, .skip cause span, rfl, rfl⟩
    | content c =>
      cases hp : a.position with
      | none =>
        refine .inr ⟨⟨.unplaced a.language, span⟩, 1, .unplaced c span, ?_, ?_⟩
        · simp only [feed, draw, hp, skip]
        · simp only [feed, draw, hp, skip]
      | some place =>
        refine .inl ⟨?_, ?_⟩
        · simp only [feed, draw, hp]
        · simp only [feed, draw, hp]

/-- Every new finding is left by an event. -/
theorem reports_of_mem {f : Finding} : ∀ {es : List Event} {a : Assembly}, f ∈ (es.foldl feed a).findings →
    f ∈ a.findings ∨ ∃ e ∈ es, ∃ n, e.Reports a.language f n
  | [], _, h => .inl h
  | e :: es, a, h => by
    rw [List.foldl_cons] at h
    rcases reports_of_mem h with hf | ⟨e', he', hreports⟩
    · rcases a.feed_cases e with ⟨hsame, -⟩ | ⟨g, n, hg, hmore, -⟩
      · rw [hsame] at hf
        exact .inl hf
      · rw [hmore] at hf
        rcases List.mem_append.1 hf with hf | hf
        · exact .inl hf
        · obtain rfl := List.mem_singleton.1 hf
          exact .inr ⟨e, List.mem_cons_self, n, hg⟩
    · rw [language_feed] at hreports
      exact .inr ⟨e', List.mem_cons_of_mem _ he', hreports⟩

/-- **Findings stand in the order of events.** -/
theorem sublist_spans : ∀ (es : List Event) (a : Assembly),
    ((es.foldl feed a).findings.map Finding.span).Sublist (a.findings.map Finding.span ++ es.map Event.span)
  | [], a => by
    rw [List.map_nil, List.append_nil]
    exact List.Sublist.refl _
  | e :: es, a => by
    have ih := sublist_spans es (a.feed e)
    rw [List.foldl_cons]
    refine ih.trans ?_
    rcases a.feed_cases e with ⟨hsame, -⟩ | ⟨f, n, hf, hmore, -⟩
    · rw [hsame, List.map_cons]
      exact (List.Sublist.refl _).append ((List.Sublist.refl _).cons _)
    · rw [hmore, List.map_append, List.map_singleton, hf.span_eq, List.map_cons, List.append_assoc]
      exact List.Sublist.refl _

end Assembly

/-! ## Reports -/

/-- Only one cause is reported under the code for programs without elements. -/
theorem Finding.id_diagnostic_eq (f : Finding) : f.diagnostic.id = "LBL1104" ↔ f.cause = .nothing := by
  obtain ⟨cause, span⟩ := f
  cases cause with
  | unrecognized command | stray text | malformed command field value reason | refused command why
  | undecodable command escape | unplaced l | nothing =>
    simp [Finding.diagnostic, Cause.code, Code.id]

/-- A report is one of the findings, or that there is no element. -/
theorem Assembly.mem_diagnostics {a : Assembly} {length : Nat} {d : Diagnostic}
    (h : d ∈ (a.finish length).diagnostics) :
    (∃ f ∈ a.findings, d = f.diagnostic) ∨ d = Finding.diagnostic ⟨.nothing, ⟨0, length⟩⟩ := by
  obtain ⟨f, hf, rfl⟩ := List.mem_map.1 h
  unfold finish at hf
  dsimp only at hf
  split at hf
  · rcases List.mem_append.1 hf with hf | hf
    · exact .inl ⟨f, hf, rfl⟩
    · rw [List.mem_singleton.1 hf]
      exact .inr rfl
  · exact .inl ⟨f, hf, rfl⟩

/-- Without the report that there is no element, the reports are those of the findings. -/
theorem Assembly.filter_diagnostics {a : Assembly} (h : ∀ f ∈ a.findings, f.cause ≠ .nothing) (length : Nat) :
    (a.finish length).diagnostics.filter (·.id ≠ "LBL1104") = a.findings.map Finding.diagnostic := by
  have hkeep : (a.findings.map Finding.diagnostic).filter (·.id ≠ "LBL1104") = a.findings.map Finding.diagnostic := by
    refine List.filter_eq_self.2 fun d hd => ?_
    obtain ⟨f, hf, rfl⟩ := List.mem_map.1 hd
    exact decide_eq_true (mt f.id_diagnostic_eq.1 (h f hf))
  unfold Recovered.diagnostics finish
  dsimp only
  split
  · rw [List.map_append, List.filter_append, hkeep]
    exact List.append_nil _
  · exact hkeep

/-! ## What scanners skip and note -/

/-- An event that skips a command or line for what is wrong with it, notes something about data, or does neither. -/
def Event.Accountable : Event → Prop
  | .step (.skip cause) _ => cause.IsRefusal
  | .note f => f.cause.IsNote
  | _ => True

theorem accountable_line (line : Line) {steps : Except Cause (List Step)} (h : Yields LineSteps steps) :
    ∀ e ∈ line.events steps, e.Accountable := by
  intro e he
  cases steps with
  | error cause =>
    rw [List.mem_singleton.1 he]
    exact h
  | ok ss =>
    obtain ⟨s, hs, rfl⟩ := List.mem_map.1 he
    cases h with
    | draw place hc =>
      rcases List.mem_cons.1 hs with rfl | hs
      · trivial
      · rw [List.mem_singleton.1 hs]
        trivial
    | page width height | setup =>
      rw [List.mem_singleton.1 hs]
      trivial

namespace Zpl

theorem accountable_segment (f : Format) (s : Segment) : ∀ e ∈ (s.events f).1, e.Accountable := by
  intro e he
  cases s with
  | bare leader span | stray text span =>
    rw [List.mem_singleton.1 he]
    trivial
  | command c span =>
    rcases obey_cases f c with hperformed | ⟨cause, hcause, hskip⟩
    · rcases List.mem_append.1 he with he | he
      · obtain ⟨cause, hcause, rfl⟩ := List.mem_map.1 he
        exact hperformed.notes cause hcause
      · rw [List.mem_singleton.1 he]
        have hstep := hperformed.step
        cases hs : (f.obey c).step with
        | skip cause =>
          rw [hs] at hstep
          exact hstep.elim
        | position place | content content | page width height | setup => trivial
    · rw [Segment.events, hskip] at he
      rw [List.mem_singleton.1 he]
      exact hcause

theorem accountable_events : ∀ (f : Format) (ss : List Segment), ∀ e ∈ events f ss, e.Accountable
  | _, [], e, he => (List.not_mem_nil he).elim
  | f, s :: ss, e, he => by
    rcases List.mem_append.1 he with he | he
    · exact accountable_segment f s e he
    · exact accountable_events _ ss e he

end Zpl

/-- **Every event of a program is accountable.** -/
theorem Language.accountable_events (l : Language) (program : List Char) : ∀ e ∈ l.events program, e.Accountable := by
  intro e he
  cases l with
  | zpl => exact Zpl.accountable_events _ _ e he
  | epl =>
    obtain ⟨line, -, he⟩ := List.mem_flatMap.1 he
    exact accountable_line line (Epl.yields_interpret line.text) e he
  | tspl =>
    obtain ⟨line, -, he⟩ := List.mem_flatMap.1 he
    exact accountable_line line (Tspl.yields_interpret line.text) e he

/-- **Every element of a program is recoverable.** -/
theorem recoverable_recovered (l : Language) (program : String) :
    ∀ e ∈ (recover l program).elements, e.Recoverable := by
  refine recoverable_of_events ?_
  intro e he
  cases l with
  | zpl => exact Zpl.recoverable_events _ _ e he
  | epl =>
    obtain ⟨line, -, he⟩ := List.mem_flatMap.1 he
    exact recoverable_line line (Epl.yields_interpret line.text) e he
  | tspl =>
    obtain ⟨line, -, he⟩ := List.mem_flatMap.1 he
    exact recoverable_line line (Tspl.yields_interpret line.text) e he

/-! ## Counting what is skipped -/

/-- Does a finding stand for something skipped? -/
def Cause.skips : Cause → Bool
  | .undecodable .. | .nothing => false
  | _ => true

/-- The findings account for what was skipped, and none says yet that the program has no element. -/
structure Assembly.Accounts (a : Assembly) : Prop where
  skipped : a.skipped = a.findings.countP (·.cause.skips)
  ne_nothing : ∀ f ∈ a.findings, f.cause ≠ .nothing

/-- What an accountable event reports is counted if and only if it skips something. -/
theorem Event.Reports.count_eq {l : Language} {e : Event} {f : Finding} {n : Nat} (h : e.Reports l f n)
    (he : e.Accountable) : n = [f].countP (·.cause.skips) ∧ f.cause ≠ .nothing := by
  cases h with
  | skip cause span =>
    cases cause with
    | unrecognized command | stray text | malformed command field value reason | refused command why =>
      exact ⟨rfl, nofun⟩
    | undecodable command escape | unplaced l | nothing => exact he.elim
  | note f =>
    obtain ⟨cause, span⟩ := f
    cases cause with
    | undecodable command escape => exact ⟨rfl, nofun⟩
    | unrecognized command | stray text | malformed command field value reason | refused command why | unplaced l
    | nothing => exact he.elim
  | unplaced c span => exact ⟨rfl, nofun⟩

theorem Assembly.Accounts.feed {a : Assembly} (h : a.Accounts) {e : Event} (he : e.Accountable) :
    (a.feed e).Accounts := by
  rcases a.feed_cases e with ⟨hfindings, hskipped⟩ | ⟨f, n, hf, hfindings, hskipped⟩
  · constructor
    · rw [hskipped, hfindings]
      exact h.skipped
    · rw [hfindings]
      exact h.ne_nothing
  · obtain ⟨hn, hne⟩ := hf.count_eq he
    constructor
    · rw [hskipped, hfindings, List.countP_append, h.skipped, hn]
    · rw [hfindings]
      intro g hg
      rcases List.mem_append.1 hg with hg | hg
      · exact h.ne_nothing g hg
      · rw [List.mem_singleton.1 hg]
        exact hne

/-- **The findings of any program account for what was skipped.** -/
theorem Language.accounts_assembly (l : Language) (program : List Char) : (l.assembly program).Accounts := by
  refine l.assembly_induction program ⟨rfl, fun f hf => (List.not_mem_nil hf).elim⟩ ?_
  intro a ha e he
  exact ha.feed (l.accountable_events program e he)

/-- The findings of an assembly are not about a program without elements. -/
theorem Assembly.Accounts.id_ne_nothing {a : Assembly} (h : a.Accounts) :
    ∀ d ∈ a.findings.map Finding.diagnostic, d.id ≠ "LBL1104" := by
  intro d hd
  obtain ⟨f, hf, rfl⟩ := List.mem_map.1 hd
  exact mt f.id_diagnostic_eq.1 (h.ne_nothing f hf)

end ThermalLabel

import ThermalLabel.Proofs.Design.Operation
import ThermalLabel.Proofs.Recovery.Report

/-!
# What is recovered is well formed

Any program at all is recovered as elements that are numbered and stacked in the order of the program (`Numbered`), and
so are a design as they stand (`Numbered.nodup`). Its reports call nothing an error, tell
what was skipped from what was noted (`Diagnostic.reportsSkip`), and end by saying so if nothing was drawn
(`EndsWithNothing`). **Whatever the program, its result is well formed** (`wellFormed_recover`).
-/

namespace ThermalLabel

/-! ## Numbers -/

/-- The elements are numbered from 1 and stacked from 0, as far as words reach. -/
def Numbered (es : List Element) : Prop :=
  ∀ i (h : i < es.length), es[i].id.toNat = min (i + 1) 4294967295 ∧ es[i].zOrder.toInt = min i 2147483647

theorem numbered_renumbered (es : List Element) : Numbered (renumbered es) := by
  intro i h
  simp only [renumbered, List.getElem_mapIdx, Element.numbered]
  exact ⟨toNat_clampWord (i + 1), toInt_zOrderOf i⟩

/-- Ids are distinct as long as words last. -/
theorem Numbered.nodup {es : List Element} (h : Numbered es) (hlength : es.length ≤ 4294967295) :
    (es.map Element.id).Nodup := by
  rw [List.Nodup, List.pairwise_iff_getElem]
  intro i j hi hj hij heq
  rw [List.length_map] at hi hj
  rw [List.getElem_map, List.getElem_map] at heq
  have hi' := (h i hi).1
  have hj' := (h j hj).1
  rw [heq] at hi'
  omega

/-! ## Reports -/

/-- Does the report give a value to a key? -/
def Diagnostic.mentions (d : Diagnostic) (key : String) : Bool := (d.context.getD []).any (·.1 = key)

/-- Is the report about something skipped? A note about field data gives the offset of an escape, and skips nothing. -/
def Diagnostic.reportsSkip (d : Diagnostic) : Bool :=
  ["LBL1101", "LBL1102", "LBL1103"].contains d.id && !d.mentions "offset"

theorem Finding.reportsSkip_diagnostic (f : Finding) : f.diagnostic.reportsSkip = f.cause.skips := by
  obtain ⟨cause, span⟩ := f
  cases cause with
  | unrecognized command | stray text | malformed command field value reason | refused command why
  | undecodable command escape | unplaced l | nothing =>
    simp [Finding.diagnostic, Diagnostic.reportsSkip, Diagnostic.mentions, Cause.context, Cause.code, Code.id,
      Cause.skips]

theorem Finding.severity_diagnostic (f : Finding) : f.diagnostic.severity ≠ .error := by
  obtain ⟨cause, span⟩ := f
  cases cause with
  | unrecognized command | stray text | malformed command field value reason | refused command why
  | undecodable command escape | unplaced l | nothing => nofun

/-- The last report is that nothing was drawn from a program of `length` bytes, and no other report is. -/
def EndsWithNothing (length : Nat) (ds : List Diagnostic) : Prop :=
  ∃ before last, ds = before ++ [last] ∧ (∀ d ∈ before, d.id ≠ "LBL1104") ∧
    last.id = "LBL1104" ∧ last.severity = .info ∧ last.span = some ⟨0, length⟩

/-! ## Results -/

/-- What every result for a program of `length` bytes keeps to. -/
structure Recovered.WellFormed (r : Recovered) (length : Nat) : Prop where
  /-- Elements have the numbers of their places. -/
  numbered : Numbered r.elements
  /-- They are a design, in stacking order, as long as words last. -/
  accepted : r.elements.length ≤ 4294967295 → ∀ stock, ∃ d, Design.ofElements stock r.elements = .ok d ∧
    d.elements = r.elements ∧ stacked d.elements = r.elements
  /-- Boxes and lines are what their measures make them. -/
  graphics : ∀ e ∈ r.elements, ∀ stroke, e.kind = .box stroke ∨ e.kind = .line stroke →
    e.kind = (Shape.of e.size stroke.thickness.dots).kind stroke
  /-- Nothing is an error. -/
  no_error : ∀ d ∈ r.diagnostics, d.severity ≠ .error
  /-- That nothing was drawn is reported once and at the end. -/
  nothing : r.elements = [] → EndsWithNothing length r.diagnostics
  /-- It is not reported when something was. -/
  something : r.elements ≠ [] → ∀ d ∈ r.diagnostics, d.id ≠ "LBL1104"
  /-- Each thing skipped has its report. -/
  skipped : r.skipped = r.diagnostics.countP Diagnostic.reportsSkip

section Finish

variable {a : Assembly} (h : a.Accounts) (length : Nat)
include h

theorem Assembly.Accounts.finish_nothing (hempty : a.elements = []) :
    EndsWithNothing length (a.finish length).diagnostics := by
  refine ⟨a.findings.map Finding.diagnostic, Finding.diagnostic ⟨.nothing, ⟨0, length⟩⟩, ?_, h.id_ne_nothing, rfl, rfl,
    rfl⟩
  simp only [Assembly.finish, Recovered.diagnostics, hempty, List.isEmpty_nil, if_true, List.map_append,
    List.map_singleton]

theorem Assembly.Accounts.finish_something (hne : a.elements ≠ []) :
    ∀ d ∈ (a.finish length).diagnostics, d.id ≠ "LBL1104" := by
  simp only [Assembly.finish, Recovered.diagnostics, List.isEmpty_iff, hne, if_false]
  exact h.id_ne_nothing

theorem Assembly.Accounts.finish_skipped :
    (a.finish length).skipped = (a.finish length).diagnostics.countP Diagnostic.reportsSkip := by
  have hcount : (a.findings.map Finding.diagnostic).countP Diagnostic.reportsSkip =
      a.findings.countP (·.cause.skips) := by
    rw [List.countP_map]
    exact List.countP_congr fun f _ => by rw [Function.comp_apply, f.reportsSkip_diagnostic]
  simp only [Assembly.finish, Recovered.diagnostics]
  rw [h.skipped, ← hcount]
  split
  · -- the report that nothing was drawn stands for nothing skipped
    rw [List.map_append, List.countP_append, List.map_singleton, List.countP_singleton, Finding.reportsSkip_diagnostic]
    rfl
  · rfl

end Finish

/-- **Whatever the program, its result is well formed.** -/
theorem wellFormed_recover (l : Language) (program : String) :
    (recover l program).WellFormed (Text.byteLength program.toList) := by
  have hrenumbered : renumbered (recover l program).elements = (recover l program).elements :=
    renumbered_recovered l program.toList
  have hnumbered : Numbered (recover l program).elements := by
    rw [← hrenumbered]
    exact numbered_renumbered _
  have haccounts := l.accounts_assembly program.toList
  constructor
  case numbered => exact hnumbered
  case accepted =>
    intro hlength stock
    have hstacked := stacked_renumbered (recover l program).elements
    rw [hrenumbered] at hstacked
    exact ⟨_, Design.ofElements_of_nodup stock (hnumbered.nodup hlength), rfl, hstacked⟩
  case graphics =>
    intro e he stroke hkind
    have hrecoverable := recoverable_recovered l program e he
    rcases hkind with hkind | hkind
    all_goals
      rw [Element.Recoverable, hkind] at hrecoverable
      rw [hkind, hrecoverable.2]
  case no_error =>
    intro d hd
    obtain ⟨f, -, rfl⟩ := List.mem_map.1 hd
    exact f.severity_diagnostic
  case nothing =>
    rw [recover_eq]
    exact haccounts.finish_nothing _
  case something =>
    rw [recover_eq]
    exact haccounts.finish_something _
  case skipped =>
    rw [recover_eq]
    exact haccounts.finish_skipped _

end ThermalLabel

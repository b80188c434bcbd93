import ThermalLabel.Proofs.Recovery.Element
import ThermalLabel.Proofs.Recovery.Reader
import ThermalLabel.Zpl.Recovery

/-!
# What a command does

A command that is neither unknown nor malformed is never a skip, and the content it draws becomes a recoverable element
(`yields_perform`). Whether a command is malformed, and for which cause, depends on its own text only: defaults and the
field begun decide what it does, but not whether it does it (`failAlike_perform`). So a command that is skipped in one
state is skipped in every state, and leaves each as it is (`obey_skip`).
-/

namespace ThermalLabel.Zpl

/-! ## Arguments -/

section Arguments

variable (a : Arguments) (i : Nat)

theorem careful_rotationArg? : Careful (rotationArg? a) := by
  unfold rotationArg?
  split
  · trivial
  · refine Yields.map (P := fun _ => True) ?_ fun _ _ => trivial
    unfold rotationArg
    split
    · trivial
    · exact yields_malformed a _ _ _

theorem careful_positiveArg? (field : String) : Careful (positiveArg? a i field) := by
  refine (a.careful_word? i field).bind fun w _ => ?_
  split
  · trivial
  · split
    · trivial
    · exact yields_malformed a _ _ _

theorem careful_positiveArgOr (field : String) (default : PositiveDots) : Careful (positiveArgOr a i field default) :=
  (a.careful_word? i field).bind fun _ _ => trivial

theorem careful_alignmentArg : Careful (alignmentArg a) := by
  unfold alignmentArg
  split
  · trivial
  · split
    · trivial
    split
    · trivial
    split
    · trivial
    · exact yields_malformed a _ _ _

theorem careful_showTextArg : Careful (showTextArg a i) := by
  unfold showTextArg
  split
  · trivial
  · split
    · trivial
    split
    · trivial
    · exact yields_malformed a _ _ _

theorem careful_indicatorArg : Careful (indicatorArg a) := by
  unfold indicatorArg
  split
  · trivial
  · split
    · split
      · trivial
      · exact yields_malformed a _ _ _
    · exact yields_malformed a _ _ _

theorem careful_moduleSizeArg : Careful (moduleSizeArg a) := by
  refine (a.careful_wordOr 2 "magnification" 2).bind fun size _ => ?_
  split
  · trivial
  · exact yields_malformed a _ _ _

theorem careful_levelArg? : Careful (levelArg? a) := by
  unfold levelArg?
  split
  · trivial
  · split
    · trivial
    · exact yields_malformed a _ _ _

theorem careful_withFont (d : Defaults) : Careful (d.withFont a) := by
  refine (careful_positiveArg? a 1 "height").bind fun height _ => ?_
  exact (a.careful_word? 2 "width").bind fun width _ => trivial

theorem careful_withBars (d : Defaults) : Careful (d.withBars a) := by
  refine (a.careful_word? 0 "module_width").bind fun width _ => ?_
  refine (a.careful_word? 2 "height").bind fun height _ => ?_
  split
  · trivial
  · split
    · exact yields_malformed a _ _ _
    · trivial

theorem careful_font (f : Format) (c : Command) : Careful (f.font c) := by
  unfold Format.font
  split
  · exact yields_malformed _ _ _ _
  · refine (careful_rotationArg? _).bind fun rotation _ => ?_
    refine (careful_positiveArgOr _ 1 "height" _).bind fun height _ => ?_
    exact (careful_positiveArgOr _ 2 "width" _).bind fun width _ => trivial

theorem careful_barcode (f : Format) (s : Symbology) : Careful (f.barcode s a) := by
  refine (careful_rotationArg? a).bind fun rotation _ => ?_
  refine (careful_positiveArgOr a _ "height" _).bind fun height _ => ?_
  exact (careful_showTextArg a _).bind fun showText _ => trivial

theorem yields_graphicArg : Yields Content.Recoverable (graphicArg a) := by
  refine (a.careful_wordOr 2 "thickness" 1).bind fun thickness _ => ?_
  refine (a.careful_wordOr 0 "width" _).bind fun width _ => ?_
  refine (a.careful_wordOr 1 "height" _).bind fun height _ => ?_
  exact Content.recoverable_graphic _ _

end Arguments

/-! ## Commands -/

/-- Field data draws text, a barcode or a QR code. -/
theorem recoverable_fieldContent (f : Format) (data : List Char) : (f.fieldContent data).Recoverable := by
  unfold Format.fieldContent
  split
  · exact Content.recoverable_field _ _ _ (.inr (.inl ⟨_, rfl⟩))
  · exact Content.recoverable_field _ _ _ (.inr (.inr ⟨_, rfl⟩))
  · exact Content.recoverable_field _ _ _ (.inl ⟨_, rfl⟩)

/-- The step of a command that is not skipped. -/
def IsPerformed : Step → Prop
  | .content c => c.Recoverable
  | .skip _ => False
  | _ => True

/-- The outcome of such a command: what it notes is about escapes in its data. -/
structure Outcome.IsPerformed (o : Outcome) : Prop where
  step : Zpl.IsPerformed o.step
  notes : ∀ cause ∈ o.notes, cause.IsNote

/-- Most commands note nothing. -/
theorem Outcome.isPerformed_of_step {s : Step} {f : Format} (h : Zpl.IsPerformed s) :
    Outcome.IsPerformed { step := s, format := f } :=
  ⟨h, fun _ hcause => (List.not_mem_nil hcause).elim⟩

open Outcome in
/-- **A command is performed** or malformed. -/
theorem yields_perform (f : Format) (c : Command) (v : Verb) : Yields Outcome.IsPerformed (f.perform c v) := by
  cases v with
  | origin =>
    refine (Arguments.careful_wordOr _ 0 "x" 0).bind fun x _ => ?_
    exact (Arguments.careful_wordOr _ 1 "y" 0).bind fun y _ => isPerformed_of_step trivial
  | separator | comment | setup => exact isPerformed_of_step trivial
  | data =>
    refine ⟨recoverable_fieldContent f _, ?_⟩
    intro cause hcause
    obtain ⟨escape, -, rfl⟩ := List.mem_map.1 hcause
    trivial
  | hexIndicator => exact (careful_indicatorArg _).bind fun i _ => isPerformed_of_step trivial
  | font => exact (careful_font f c).bind fun font _ => isPerformed_of_step trivial
  | defaultFont => exact (careful_withFont _ f.defaults).bind fun d _ => isPerformed_of_step trivial
  | defaultRotation => exact (careful_rotationArg? _).bind fun r _ => isPerformed_of_step trivial
  | block =>
    refine (Arguments.careful_wordOr _ 0 "width" 0).bind fun width _ => ?_
    exact (careful_alignmentArg _).bind fun alignment _ => isPerformed_of_step trivial
  | barDefaults => exact (careful_withBars _ f.defaults).bind fun d _ => isPerformed_of_step trivial
  | barcode s => exact (careful_barcode _ f s).bind fun symbol _ => isPerformed_of_step trivial
  | qrCode =>
    refine (careful_moduleSizeArg _).bind fun size _ => ?_
    exact (careful_levelArg? _).bind fun level _ => isPerformed_of_step trivial
  | graphic => exact (yields_graphicArg _).bind fun content hcontent => isPerformed_of_step hcontent
  | pageWidth => exact (Arguments.careful_word _ 0 "width").bind fun width _ => isPerformed_of_step trivial
  | pageLength => exact (Arguments.careful_word _ 0 "length").bind fun length _ => isPerformed_of_step trivial

/-- **A command is performed, or skipped** for what is wrong with it. -/
theorem obey_cases (f : Format) (c : Command) :
    (f.obey c).IsPerformed ∨ ∃ cause : Cause, cause.IsRefusal ∧ f.obey c = { step := .skip cause, format := f } := by
  unfold Format.obey
  split
  · exact .inr ⟨.unrecognized _, trivial, rfl⟩
  · rename_i v _
    have hyields := yields_perform f c v
    split
    · rename_i o ho
      rw [ho] at hyields
      exact .inl hyields
    · rename_i cause hcause
      rw [hcause] at hyields
      exact .inr ⟨cause, hyields, rfl⟩

/-- The content of an event is that of field data or a graphic. -/
theorem recoverable_segment (f : Format) (s : Segment) : ∀ e ∈ (s.events f).1, e.Recoverable := by
  intro e he
  cases s with
  | bare leader span | stray text span =>
    rw [List.mem_singleton.1 he]
    trivial
  | command c span =>
    rcases List.mem_append.1 he with he | he
    · obtain ⟨cause, -, rfl⟩ := List.mem_map.1 he
      trivial
    · rw [List.mem_singleton.1 he]
      rcases obey_cases f c with hperformed | ⟨cause, -, hskip⟩
      · have hstep := hperformed.step
        cases hs : (f.obey c).step with
        | content content =>
          rw [hs] at hstep
          exact hstep
        | position place | page width height | setup | skip cause => trivial
      · rw [hskip]
        trivial

theorem recoverable_events : ∀ (f : Format) (ss : List Segment), ∀ e ∈ events f ss, e.Recoverable
  | _, [], e, he => (List.not_mem_nil he).elim
  | f, s :: ss, e, he => by
    rcases List.mem_append.1 he with he | he
    · exact recoverable_segment f s e he
    · exact recoverable_events _ ss e he

/-! ## The same in every state -/

/-- The readers both give a value, or fail for the same cause. -/
inductive FailAlike {α β : Type} : Except Cause α → Except Cause β → Prop
  | ok (a : α) (b : β) : FailAlike (.ok a) (.ok b)
  | error (cause : Cause) : FailAlike (.error cause) (.error cause)

section FailAlike

variable {α β γ δ : Type}

/-- The same reader first, with the same value for both. -/
theorem FailAlike.after (x : Except Cause α) {f : α → Except Cause β} {g : α → Except Cause γ}
    (h : ∀ a, FailAlike (f a) (g a)) : FailAlike (x >>= f) (x >>= g) := by
  cases x with
  | ok a => exact h a
  | error cause => exact .error cause

/-- Readers that fail alike first, perhaps with different values. -/
theorem FailAlike.bind {x : Except Cause α} {y : Except Cause β} {f : α → Except Cause γ} {g : β → Except Cause δ}
    (hx : FailAlike x y) (h : ∀ a b, FailAlike (f a) (g b)) : FailAlike (x >>= f) (y >>= g) := by
  cases hx with
  | ok a b => exact h a b
  | error cause => exact .error cause

end FailAlike

theorem failAlike_positiveArgOr (a : Arguments) (i : Nat) (field : String) (default default' : PositiveDots) :
    FailAlike (positiveArgOr a i field default) (positiveArgOr a i field default') :=
  .after _ fun _ => .ok _ _

/-- Defaults take the place of absent values, and no default is malformed. -/
theorem failAlike_font (f g : Format) (c : Command) : FailAlike (f.font c) (g.font c) := by
  unfold Format.font
  split
  · exact .error _
  · refine .after _ fun rotation => ?_
    refine (failAlike_positiveArgOr _ 1 "height" _ _).bind fun height height' => ?_
    exact (failAlike_positiveArgOr _ 2 "width" _ _).bind fun _ _ => .ok _ _

theorem failAlike_withFont (d d' : Defaults) (a : Arguments) : FailAlike (d.withFont a) (d'.withFont a) := by
  refine .after _ fun height => ?_
  exact .after _ fun width => .ok _ _

theorem failAlike_withBars (d d' : Defaults) (a : Arguments) : FailAlike (d.withBars a) (d'.withBars a) := by
  refine .after _ fun width => ?_
  refine .after _ fun height => ?_
  split
  · exact .ok _ _
  · split
    · exact .error _
    · exact .ok _ _

theorem failAlike_barcode (f g : Format) (s : Symbology) (a : Arguments) :
    FailAlike (f.barcode s a) (g.barcode s a) := by
  refine .after _ fun rotation => ?_
  refine (failAlike_positiveArgOr a _ "height" _ _).bind fun _ _ => ?_
  exact .after _ fun showText => .ok _ _

/-- **Whether a command is malformed does not depend on the state.** -/
theorem failAlike_perform (f g : Format) (c : Command) (v : Verb) : FailAlike (f.perform c v) (g.perform c v) := by
  cases v with
  | separator | data | comment | setup => exact .ok _ _
  | font => exact (failAlike_font f g c).bind fun _ _ => .ok _ _
  | defaultFont => exact (failAlike_withFont _ _ _).bind fun _ _ => .ok _ _
  | barDefaults => exact (failAlike_withBars _ _ _).bind fun _ _ => .ok _ _
  | barcode s => exact (failAlike_barcode f g s _).bind fun _ _ => .ok _ _
  | hexIndicator | defaultRotation | graphic | pageWidth | pageLength => exact .after _ fun _ => .ok _ _
  | origin | block | qrCode => exact .after _ fun _ => .after _ fun _ => .ok _ _

/-- **A command that is skipped in one state** is skipped in every state, for the same cause and without effect. -/
theorem obey_skip {f : Format} {c : Command} {cause : Cause} (h : (f.obey c).step = .skip cause) (g : Format) :
    g.obey c = { step := .skip cause, format := g } := by
  unfold Format.obey at h ⊢
  cases hv : Verb.of? c.leader c.head with
  | none =>
    simp only [hv] at h ⊢
    rw [h]
  | some v =>
    have halike := failAlike_perform f g c v
    have hyields := yields_perform f c v
    simp only [hv] at h ⊢
    cases hf : f.perform c v with
    | ok o =>
      -- what is performed is no skip
      rw [hf] at h hyields
      have hperformed : IsPerformed o.step := Outcome.IsPerformed.step hyields
      rw [show o.step = .skip cause from h] at hperformed
      exact hperformed.elim
    | error cause' =>
      rw [hf] at h halike
      obtain rfl : cause' = cause := Step.skip.inj h
      cases hg : g.perform c v with
      | ok o =>
        rw [hg] at halike
        cases halike
      | error cause'' =>
        rw [hg] at halike
        cases halike
        rfl

end ThermalLabel.Zpl

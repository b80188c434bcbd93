import ThermalLabel.Proofs.Recovery.Arguments
import ThermalLabel.Proofs.Recovery.Assembly
import ThermalLabel.Proofs.Zpl.Segment
import ThermalLabel.Zpl.Recovery

/-!
# Obeying written commands

`Obeys f cs ss g` says that the commands `cs` turn the state `f` into `g`, report nothing and have the effects `ss`.
Then the segments of these commands have just these effects, wherever they stand in a program (`Obeys.effects_events`),
and a command does what its verb does with the arguments it was written with (`obey_of_perform`, `values_body`).
-/

namespace ThermalLabel.Zpl

/-! ## Runs of commands -/

/-- Obeying the commands has these effects, and ends in the second state. -/
inductive Obeys : Format → List Command → List Step → Format → Prop
  | nil {f : Format} : Obeys f [] [] f
  /-- A command without effect on elements. -/
  | setup {f g h : Format} {c : Command} {cs : List Command} {ss : List Step} :
      f.obey c = { step := .setup, format := g } → Obeys g cs ss h → Obeys f (c :: cs) ss h
  | step {f g h : Format} {c : Command} {cs : List Command} {s : Step} {ss : List Step} :
      f.obey c = { step := s, format := g } → s ≠ .setup → Obeys g cs ss h → Obeys f (c :: cs) (s :: ss) h

theorem Obeys.append {f g h : Format} {cs cs' : List Command} {ss ss' : List Step} (h₁ : Obeys f cs ss g)
    (h₂ : Obeys g cs' ss' h) : Obeys f (cs ++ cs') (ss ++ ss') h := by
  induction h₁ with
  | nil => exact h₂
  | setup hc _ ih => exact .setup hc (ih h₂)
  | step hc hs _ ih => exact .step hc hs (ih h₂)

/-- An event of a step has that step as its effect. -/
theorem effects_step {s : Step} (hs : s ≠ .setup) (span : Span) : effects [.step s span] = [s] := by
  cases s with
  | setup => exact absurd rfl hs
  | position place => rfl
  | content c => rfl
  | page w h => rfl
  | skip cause => rfl

/-- **Segments have the effects of their commands.** -/
theorem Obeys.effects_events {f g : Format} {cs : List Command} {ss : List Step} (h : Obeys f cs ss g)
    (rest : List Segment) : ∀ offset : Nat,
      effects (events f (spanned offset cs ++ rest)) = ss ++ effects (events g rest) := by
  induction h with
  | nil => intro offset; rfl
  | @setup f g h c cs ss hc _ ih =>
    intro offset
    rw [spanned, List.cons_append, events, Segment.events, hc, effects_append]
    exact ih _
  | @step f g h c cs s ss hc hs _ ih =>
    intro offset
    rw [spanned, List.cons_append, events, Segment.events, hc, effects_append]
    show effects [.step s _] ++ _ = _
    rw [effects_step hs, ih]
    rfl

/-- A command that is neither unknown nor malformed. -/
theorem obey_of_perform {f : Format} {c : Command} {v : Verb} {o : Outcome} (hv : Verb.of? c.leader c.head = some v)
    (hp : f.perform c v = .ok o) : f.obey c = o := by
  rw [Format.obey, hv]
  simp only [hp]

/-! ## Written arguments -/

/-- An argument that stands in a body: no argument or command ends in it. -/
def IsField (t : List Char) : Prop := ',' ∉ t ∧ Inner t

instance : DecidablePred IsField := fun t => inferInstanceAs (Decidable (',' ∉ t ∧ Inner t))

theorem isField_decimal (n : Nat) : IsField (decimal n) := by
  have hdigit : ∀ c ∈ decimal n, isHeadChar c = true := by
    intro c hc
    rw [isHeadChar, isDigit_of_mem_decimal hc, Bool.or_true]
  refine ⟨fun hm => ?_, fun c hc => (isValueChar_of_isHeadChar (hdigit c hc)).2.2.2⟩
  exact (isValueChar_of_isHeadChar (hdigit _ hm)).2.2.1 rfl

theorem isField_digits (w : UInt32) : IsField (wordDigits w) := isField_decimal w.toNat

theorem isField_rotation (r : Rotation) : IsField (r.token .zpl).toList := by
  cases r <;> decide

/-- The arguments of a command are those it was written with. -/
theorem values_body (c : Command) {fields : List (List Char)} (hne : fields ≠ []) (h : ∀ t ∈ fields, IsField t) :
    (argumentsOf c (body fields)).values = fields :=
  Text.splitOn_joinWith hne fun t ht => (h t ht).1

theorem values_digits (c : Command) (w : UInt32) : (argumentsOf c (wordDigits w)).values = [wordDigits w] :=
  Text.splitOn_of_not_mem (isField_digits w).1

theorem inner_body {fields : List (List Char)} (h : ∀ t ∈ fields, IsField t) : Inner (body fields) := by
  intro c hc
  obtain rfl | ⟨t, ht, hc⟩ := Text.mem_joinWith hc
  · decide
  · exact (h t ht).2 c hc

theorem writable_caret {head : String} {body : List Char} (hh : IsHead head.toList) (h : Inner body) :
    (Command.caret head body).Writable :=
  ⟨hh, h⟩

end ThermalLabel.Zpl

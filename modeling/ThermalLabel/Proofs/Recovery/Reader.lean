import ThermalLabel.Recovery.Arguments

/-!
# Readers that may fail

A reader of a command gives a value or says what is wrong with the command. `Yields P` says that the value satisfies
`P`, and composes along the arguments that a reader takes one after the other; `Careful` readers give any value at all.
-/

namespace ThermalLabel

/-- Is the cause about a command, unknown or malformed, and not about where it stands or about an escape in its data? -/
def Cause.IsRefusal : Cause → Prop
  | .unrecognized _ | .stray _ | .malformed .. | .refused .. => True
  | .undecodable .. | .unplaced _ | .nothing => False

theorem Cause.IsRefusal.code {c : Cause} (h : c.IsRefusal) :
    c.code = .unrecognizedCommand ∨ c.code = .malformedArguments := by
  cases c with
  | unrecognized command | stray text => exact .inl rfl
  | malformed command field value reason | refused command why => exact .inr rfl
  | undecodable command escape | unplaced l | nothing => exact h.elim

/-- A finding that skips nothing: field data with an escape that cannot be read is taken as written. -/
def Cause.IsNote : Cause → Prop
  | .undecodable .. => True
  | _ => False

/-- The reader gives a value with a property, or says what is wrong with the command. -/
def Yields {α : Type} (P : α → Prop) : Except Cause α → Prop
  | .ok a => P a
  | .error cause => cause.IsRefusal

section Yields

variable {α β : Type} {P : α → Prop} {Q : β → Prop} {x : Except Cause α}

/-- One reader after another. -/
theorem Yields.bind {f : α → Except Cause β} (hx : Yields P x) (hf : ∀ a, P a → Yields Q (f a)) :
    Yields Q (x >>= f) := by
  cases x with
  | ok a => exact hf a hx
  | error cause => exact hx

theorem Yields.map {f : α → β} (hx : Yields P x) (hf : ∀ a, P a → Q (f a)) : Yields Q (x.map f) := by
  cases x with
  | ok a => exact hf a hx
  | error cause => exact hx

theorem Yields.mono {R : α → Prop} (hx : Yields P x) (h : ∀ a, P a → R a) : Yields R x := by
  cases x with
  | ok a => exact h a hx
  | error cause => exact hx

/-- What is wrong with a field is wrong with the command. -/
theorem yields_malformed (a : Arguments) (field : String) (value : List Char) (reason : String) :
    Yields P (.error (a.malformed field value reason)) :=
  trivial

end Yields

/-- The reader gives any value at all. -/
abbrev Careful {α : Type} (x : Except Cause α) : Prop := Yields (fun _ => True) x

namespace Arguments

variable (a : Arguments) (i : Nat) (field : String)

theorem careful_word? : Careful (a.word? i field) := by
  unfold word?
  split
  · trivial
  · split
    · trivial
    · exact yields_malformed a _ _ _

theorem careful_wordOr (default : UInt32) : Careful (a.wordOr i field default) :=
  (a.careful_word? i field).map fun _ _ => trivial

theorem careful_word : Careful (a.word i field) := by
  have h := a.careful_word? i field
  unfold word
  split
  · trivial
  · exact yields_malformed a _ _ _
  · rename_i cause hcause
    rw [hcause] at h
    exact h

theorem careful_place : Careful a.place := by
  refine (a.careful_word 0 "x").bind fun _ _ => ?_
  exact (a.careful_word 1 "y").bind fun _ _ => trivial

end Arguments

end ThermalLabel

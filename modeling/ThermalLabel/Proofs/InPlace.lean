import Mathlib.Control.Monad.Basic

/-!
# Computations that fail midway

A computation that changes a state and may fail keeps the state that it has reached when it fails. Its run is that of
its first step, followed by the rest unless this step fails (`run_bind`).
-/

namespace ThermalLabel

variable {ε σ α β : Type}

/-- A failure keeps the state that it is met with. -/
theorem run_bind (x : ExceptT ε (StateM σ) α) (k : α → ExceptT ε (StateM σ) β) (s : σ) :
    (x >>= k).run.run s =
      match x.run.run s with
      | (.ok a, s) => (k a).run.run s
      | (.error e, s) => (.error e, s) := by
  simp only [ExceptT.run_bind, StateT.run_bind]
  rcases x.run.run s with ⟨_ | _, s⟩ <;> rfl

/-- What is computed without the state changes nothing. -/
theorem run_read (x : Except ε α) (k : α → ExceptT ε (StateM σ) β) (s : σ) :
    (liftM x >>= k : ExceptT ε (StateM σ) β).run.run s =
      match x with
      | .ok a => (k a).run.run s
      | .error e => (.error e, s) := by
  cases x <;> rfl

theorem run_get (k : σ → ExceptT ε (StateM σ) β) (s : σ) :
    (get >>= k : ExceptT ε (StateM σ) β).run.run s = (k s).run.run s := rfl

end ThermalLabel

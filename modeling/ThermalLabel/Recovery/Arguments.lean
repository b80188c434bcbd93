import ThermalLabel.Recovery.Finding
import ThermalLabel.Number.Word

/-!
# Arguments

The comma-separated arguments of one command. An argument that is missing or blank counts as absent; a number is read
from the rest without the blanks around it. What cannot be read is a `malformed` cause that names the command, the field
and the value.
-/

namespace ThermalLabel

/-- A command and its arguments as written, quotes already removed. -/
structure Arguments where
  command : List Char
  values : List (List Char)
  deriving DecidableEq, Repr

namespace Arguments

variable (a : Arguments)

/-- The argument at an index without blanks around it, unless it is absent. -/
def get? (index : Nat) : Option (List Char) :=
  (a.values[index]?.map Text.trim).filter (· ≠ [])

/-- The argument at an index as written; nothing if there is none. -/
def raw (index : Nat) : List Char := a.values[index]?.getD []

/-- The command's name in messages. -/
def name : String := String.ofList a.command

/-- A field of the command that cannot be read. -/
def malformed (field : String) (value : List Char) (reason : String) : Cause :=
  .malformed a.name field (String.ofList value) reason

/-- The word at an index, if the argument is not absent. -/
def word? (index : Nat) (field : String) : Except Cause (Option UInt32) :=
  match a.get? index with
  | none => .ok none
  | some v =>
    match readWord v with
    | some w => .ok (some w)
    | none => .error (a.malformed field v "expected a non-negative integer")

/-- The word at an index, or `default` if the argument is absent. -/
def wordOr (index : Nat) (field : String) (default : UInt32) : Except Cause UInt32 :=
  (a.word? index field).map (·.getD default)

/-- The word at an index, which must be there. -/
def word (index : Nat) (field : String) : Except Cause UInt32 :=
  match a.word? index field with
  | .ok (some w) => .ok w
  | .ok none => .error (a.malformed field [] "missing value")
  | .error e => .error e

/-- The place at the first two arguments, which must be there. -/
def place : Except Cause Point := do
  let x ← a.word 0 "x"
  let y ← a.word 1 "y"
  return ⟨x, y⟩

end Arguments

end ThermalLabel

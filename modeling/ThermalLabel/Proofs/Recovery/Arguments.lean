import ThermalLabel.Recovery.Arguments
import ThermalLabel.Proofs.Number.Word

/-!
# Reading written arguments

An argument that was written as digits is read as the word (`word?_of_digits`), whether it may be absent, has a default
or must be there; any tidy argument is read as it stands (`get?_of_tidy`).
-/

namespace ThermalLabel.Arguments

variable {a : Arguments} {i : Nat}

theorem get?_of_tidy {v : List Char} (h : a.values[i]? = some v) (hv : Text.Tidy v) : a.get? i = some v := by
  rw [get?, h, Option.map_some, Text.trim_of_tidy hv]
  simp [hv.ne_nil]

theorem get?_of_digits {w : UInt32} (h : a.values[i]? = some (wordDigits w)) : a.get? i = some (wordDigits w) :=
  get?_of_tidy h (tidy_decimal _)

theorem raw_of_value {v : List Char} (h : a.values[i]? = some v) : a.raw i = v := by
  rw [raw, h, Option.getD_some]

/-- **Digits are read as the word they were written for.** -/
theorem word?_of_digits {w : UInt32} (field : String) (h : a.values[i]? = some (wordDigits w)) :
    a.word? i field = .ok (some w) := by
  rw [word?, get?_of_digits h]
  simp only [readWord_wordDigits]

theorem wordOr_of_digits {w : UInt32} (field : String) (default : UInt32) (h : a.values[i]? = some (wordDigits w)) :
    a.wordOr i field default = .ok w := by
  rw [wordOr, word?_of_digits field h]
  rfl

theorem word_of_digits {w : UInt32} (field : String) (h : a.values[i]? = some (wordDigits w)) :
    a.word i field = .ok w := by
  rw [word, word?_of_digits field h]

theorem place_of_digits {x y : UInt32} (hx : a.values[0]? = some (wordDigits x))
    (hy : a.values[1]? = some (wordDigits y)) : a.place = .ok ⟨x, y⟩ := by
  rw [place, word_of_digits "x" hx, word_of_digits "y" hy]
  rfl

end ThermalLabel.Arguments

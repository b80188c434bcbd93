import ThermalLabel.Line.Drawing
import ThermalLabel.Proofs.Line.Argument
import ThermalLabel.Proofs.Line.Source
import ThermalLabel.Proofs.Number.Word

/-!
# Written statements

The arguments that statements are written with need no trimming and hold no line feed (`Argument.Written`). Such
arguments make a line that is read back (`isLine_append`), and are split again as they were written (`Written.clean`).
-/

namespace ThermalLabel

/-! ## Arguments -/

/-- An argument that stands in a statement: plain text needs neither quotes nor trimming, and no line ends in it. -/
def Argument.Written : Argument → Prop
  | .plain t => Text.Tidy t ∧ '"' ∉ t ∧ ',' ∉ t ∧ '\n' ∉ t
  | .quoted c => '\n' ∉ c

instance : DecidablePred Argument.Written
  | .plain t => inferInstanceAs (Decidable (Text.Tidy t ∧ '"' ∉ t ∧ ',' ∉ t ∧ '\n' ∉ t))
  | .quoted c => inferInstanceAs (Decidable ('\n' ∉ c))

namespace Argument.Written

theorem clean {a : Argument} (h : a.Written) : a.Clean := by
  cases a with
  | plain t => exact ⟨h.2.1, h.2.2.1⟩
  | quoted c => trivial

theorem tidy_text {a : Argument} (h : a.Written) (e : QuoteEscape) : Text.Tidy (a.text e) := by
  have hquote : Text.Tidy ['"'] := by decide
  cases a with
  | plain t => exact h.1
  | quoted c => exact hquote.append _ hquote

/-- Escaping adds no line feed. -/
theorem lineFeed_not_mem_escape (e : QuoteEscape) {content : List Char} (h : '\n' ∉ content) :
    '\n' ∉ e.escape content := by
  intro hm
  obtain ⟨c, hc, hm⟩ := List.mem_flatMap.1 hm
  have hne : c ≠ '\n' := fun he => h (he ▸ hc)
  cases e with
  | backslash =>
    rw [QuoteEscape.char] at hm
    split at hm <;> simp [Ne.symm hne] at hm
  | bracket =>
    rw [QuoteEscape.char] at hm
    split at hm <;> simp [Ne.symm hne] at hm

theorem lineFeed_not_mem_text {a : Argument} (h : a.Written) (e : QuoteEscape) : '\n' ∉ a.text e := by
  cases a with
  | plain t => exact h.2.2.2
  | quoted c =>
    have := lineFeed_not_mem_escape e h
    simp [Argument.text, this]

end Argument.Written

/-- Digits may stand in a statement. -/
theorem written_decimal (n : Nat) : (Argument.plain (decimal n)).Written := by
  refine ⟨tidy_decimal n, ?_, ?_, ?_⟩
  all_goals
    intro h
    exact absurd (isDigit_of_mem_decimal h) (by decide)

/-- A word may stand in a statement. -/
theorem written_word (w : UInt32) : (Argument.word w).Written := written_decimal w.toNat

/-- Words may stand in a statement. -/
theorem written_words (ws : List UInt32) : ∀ a ∈ ws.map Argument.word, a.Written := by
  intro a ha
  obtain ⟨w, -, rfl⟩ := List.mem_map.1 ha
  exact written_word w

/-- Content on one line may stand in a statement. -/
theorem written_oneLine (content : List Char) : (Argument.quoted (oneLine content)).Written := by
  intro h
  obtain ⟨c, -, hc⟩ := List.mem_map.1 h
  split at hc
  · exact absurd hc (by decide)
  · rename_i hctrl
    subst hc
    exact hctrl (by decide)

/-! ## Lines -/

theorem isLine_argumentsText (e : QuoteEscape) {as : List Argument} (hne : as ≠ []) (h : ∀ a ∈ as, a.Written) :
    IsLine (argumentsText e as) := by
  refine ⟨Text.tidy_joinWith (by simpa using hne) fun f hf => ?_, fun hm => ?_⟩
  · obtain ⟨a, ha, rfl⟩ := List.mem_map.1 hf
    exact (h a ha).tidy_text e
  · obtain hm | ⟨f, hf, hm⟩ := Text.mem_joinWith hm
    · exact absurd hm (by decide)
    · obtain ⟨a, ha, rfl⟩ := List.mem_map.1 hf
      exact (h a ha).lineFeed_not_mem_text e hm

/-- The line of a name, perhaps something between, and written arguments. -/
theorem isLine_append (e : QuoteEscape) {name : List Char} (hname : IsLine name) {between : List Char}
    (hb : '\n' ∉ between) {as : List Argument} (hne : as ≠ []) (h : ∀ a ∈ as, a.Written) :
    IsLine (name ++ between ++ argumentsText e as) := by
  obtain ⟨ht, hf⟩ := isLine_argumentsText e hne h
  refine ⟨hname.1.append between ht, fun hm => ?_⟩
  rcases List.mem_append.1 hm with hm | hm
  · rcases List.mem_append.1 hm with hm | hm
    · exact hname.2 hm
    · exact hb hm
  · exact hf hm

/-- The arguments that are read from written ones. -/
theorem argumentsIn_argumentsText (e : QuoteEscape) (command : List Char) {as : List Argument} (hne : as ≠ [])
    (h : ∀ a ∈ as, a.Written) : argumentsIn e command (argumentsText e as) = .ok ⟨command, as.map Argument.value⟩ := by
  rw [argumentsIn, split_argumentsText e hne fun a ha => (h a ha).clean]

end ThermalLabel

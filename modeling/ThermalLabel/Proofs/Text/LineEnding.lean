import ThermalLabel.Proofs.Text.Slice
import ThermalLabel.Proofs.Text.Fields

/-!
# Line endings with carriage returns

`withReturns` puts a carriage return in front of every line feed. What takes or drops characters by a class that does
not tell the two apart, does the same to the text with carriage returns (`takeWhile_withReturns`,
`dropRightWhile_withReturns`). An offset moves on by the number of line feeds before it (`movedOffset_append`).
-/

namespace ThermalLabel.Text

/-- The text with a carriage return in front of each line feed. -/
def withReturns (cs : List Char) : List Char := cs.flatMap fun c => if c = '\n' then ['\r', '\n'] else [c]

/-- The program with line endings of two characters. -/
def crlf (program : String) : String := String.ofList (withReturns program.toList)

@[simp] theorem withReturns_nil : withReturns [] = [] := rfl

theorem withReturns_lineFeed (cs : List Char) : withReturns ('\n' :: cs) = '\r' :: '\n' :: withReturns cs := rfl

theorem withReturns_cons {c : Char} (h : c ≠ '\n') (cs : List Char) : withReturns (c :: cs) = c :: withReturns cs := by
  rw [withReturns, List.flatMap_cons, if_neg h]
  rfl

theorem withReturns_append (a b : List Char) : withReturns (a ++ b) = withReturns a ++ withReturns b :=
  List.flatMap_append

/-- A text without line feeds stays as it is. -/
theorem withReturns_of_not_mem : ∀ {cs : List Char}, '\n' ∉ cs → withReturns cs = cs
  | [], _ => rfl
  | c :: cs, h => by
    rw [List.mem_cons, not_or] at h
    rw [withReturns_cons (Ne.symm h.1), withReturns_of_not_mem h.2]

/-! ## Classes that contain both or neither -/

section Classes

variable {p : Char → Bool}

theorem all_withReturns (hp : p '\r' = p '\n') {cs : List Char} (h : ∀ c ∈ cs, p c = true) :
    ∀ c ∈ withReturns cs, p c = true := by
  intro c hc
  obtain ⟨d, hd, hcd⟩ := List.mem_flatMap.1 hc
  split at hcd
  · rename_i hfeed
    have hboth : c = '\r' ∨ c = '\n' := by simpa using hcd
    rw [hfeed] at hd
    rcases hboth with rfl | rfl
    · exact hp.trans (h _ hd)
    · exact h _ hd
  · rw [List.mem_singleton.1 hcd]
    exact h d hd

theorem takeWhile_withReturns (hp : p '\r' = p '\n') (cs : List Char) :
    (withReturns cs).takeWhile p = withReturns (cs.takeWhile p) := by
  induction cs with
  | nil => rfl
  | cons c cs ih =>
    by_cases hc : c = '\n'
    · subst hc
      rw [withReturns_lineFeed, List.takeWhile_cons, List.takeWhile_cons, List.takeWhile_cons, hp, ih]
      split <;> rfl
    · rw [withReturns_cons hc, List.takeWhile_cons, List.takeWhile_cons, ih]
      split
      · rw [withReturns_cons hc]
      · rfl

theorem dropWhile_withReturns (hp : p '\r' = p '\n') (cs : List Char) :
    (withReturns cs).dropWhile p = withReturns (cs.dropWhile p) := by
  induction cs with
  | nil => rfl
  | cons c cs ih =>
    by_cases hc : c = '\n'
    · subst hc
      rw [withReturns_lineFeed, List.dropWhile_cons, List.dropWhile_cons, List.dropWhile_cons, hp, ih]
      split <;> rfl
    · rw [withReturns_cons hc, List.dropWhile_cons, List.dropWhile_cons, ih]
      split
      · rfl
      · rw [withReturns_cons hc]

/-- What is at the end and in the class is dropped. -/
theorem dropRightWhile_append_of_all {b : List Char} (h : ∀ c ∈ b, p c = true) (a : List Char) :
    dropRightWhile p (a ++ b) = dropRightWhile p a := by
  rw [dropRightWhile, List.reverse_append, List.dropWhile_append_of_pos fun c hc => h c (List.mem_reverse.1 hc)]
  rfl

theorem dropRightWhile_concat {c : Char} (h : p c = false) (a : List Char) :
    dropRightWhile p (a ++ [c]) = a ++ [c] := by
  apply dropRightWhile_of_getLast
  rw [List.getLast?_concat]
  simp [h]

theorem dropRightWhile_withReturns (hp : p '\r' = p '\n') (cs : List Char) :
    dropRightWhile p (withReturns cs) = withReturns (dropRightWhile p cs) := by
  -- by induction from the end
  obtain ⟨r, rfl⟩ : ∃ r, cs = List.reverse r := ⟨cs.reverse, cs.reverse_reverse.symm⟩
  induction r with
  | nil => rfl
  | cons c r ih =>
    rw [List.reverse_cons, withReturns_append]
    cases hc : p c with
    | true =>
      have hall : ∀ d ∈ [c], p d = true := List.forall_mem_singleton.2 hc
      rw [dropRightWhile_append_of_all (all_withReturns hp hall), dropRightWhile_append_of_all hall, ih]
    | false =>
      rw [dropRightWhile_concat hc, withReturns_append]
      by_cases hfeed : c = '\n'
      · subst hfeed
        rw [withReturns_lineFeed, List.append_cons]
        exact dropRightWhile_concat hc _
      · rw [withReturns_cons hfeed]
        exact dropRightWhile_concat hc _

end Classes

/-! ## Offsets -/

/-- The offset in the text with carriage returns of what is at an offset in the text. -/
def movedOffset : List Char → Nat → Nat
  | [], n => n
  | c :: cs, n => if n < c.utf8Size then n else byteLength (withReturns [c]) + movedOffset cs (n - c.utf8Size)

/-- **An offset moves on** by the carriage returns before it. -/
theorem movedOffset_append (a b : List Char) (n : Nat) :
    movedOffset (a ++ b) (byteLength a + n) = byteLength (withReturns a) + movedOffset b n := by
  induction a with
  | nil => rw [List.nil_append, byteLength_nil, withReturns_nil, byteLength_nil, Nat.zero_add, Nat.zero_add]
  | cons c a ih =>
    have hlt : ¬byteLength (c :: a) + n < c.utf8Size := by
      rw [byteLength_cons]
      omega
    have hrest : byteLength (c :: a) + n - c.utf8Size = byteLength a + n := by
      rw [byteLength_cons]
      omega
    rw [List.cons_append, movedOffset, if_neg hlt, hrest, ih, ← Nat.add_assoc, ← byteLength_append,
      ← withReturns_append]
    rfl

theorem movedOffset_zero (cs : List Char) : movedOffset cs 0 = 0 := by
  cases cs with
  | nil => rfl
  | cons c cs => rw [movedOffset, if_pos c.utf8Size_pos]

/-- The end of a part of the text. -/
theorem movedOffset_byteLength (a b : List Char) :
    movedOffset (a ++ b) (byteLength a) = byteLength (withReturns a) := by
  have h := movedOffset_append a b 0
  rwa [movedOffset_zero] at h

/-- The end of the text. -/
theorem movedOffset_end (cs : List Char) : movedOffset cs (byteLength cs) = byteLength (withReturns cs) := by
  have h := movedOffset_byteLength cs []
  rwa [List.append_nil] at h

end ThermalLabel.Text

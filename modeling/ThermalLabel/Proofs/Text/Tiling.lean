import ThermalLabel.Proofs.Text.Slice

/-!
# Texts cut into units

A scanner goes through a text once. It leaves out blanks, and what else it takes is a unit, whose span leaves out the
blanks at its end: the spans tile the text (`Tiled`). Then

* they are slices of the text that stand in order (`Tiled.ascending`) and do not overlap (`Tiled.pairwise`);
* **each character that is not blank is in exactly one of them** (`Tiled.countP_holds`).
-/

namespace ThermalLabel

/-- Is all of the character `c` at an offset in the span? -/
def Span.holds (s : Span) (offset : Nat) (c : Char) : Bool := s.start ≤ offset ∧ offset + c.utf8Size ≤ s.stop

namespace Text

/-- The spans of the units in what remains of a text behind `before`. -/
inductive Tiled : List Char → List Char → List Span → Prop
  | nil {before : List Char} : Tiled before [] []
  /-- Blanks that belong to no unit. -/
  | gap {before gap rest : List Char} {ss : List Span} : (∀ c ∈ gap, isBlank c = true) →
      Tiled (before ++ gap) rest ss → Tiled before (gap ++ rest) ss
  /-- A unit, without the blanks after it. A unit may be all blanks, but something is taken for it. -/
  | unit {before text gap rest : List Char} {ss : List Span} : text ++ gap ≠ [] → (∀ c ∈ gap, isBlank c = true) →
      Tiled (before ++ (text ++ gap)) rest ss →
      Tiled before (text ++ gap ++ rest) (⟨byteLength before, byteLength before + byteLength text⟩ :: ss)

/-- A character of a text in two parts is in the first of them or in the second. -/
theorem append_eq_append_cons {a b pre post : List Char} {c : Char} (h : a ++ b = pre ++ c :: post) :
    (∃ m, a = pre ++ c :: m) ∨ ∃ m, pre = a ++ m ∧ b = m ++ c :: post := by
  rcases List.append_eq_append_iff.1 h with ⟨m, hpre, hb⟩ | ⟨m, ha, hc⟩
  · exact .inr ⟨m, hpre, hb⟩
  · cases m with
    | nil =>
      refine .inr ⟨[], ?_, hc.symm⟩
      rw [ha, List.append_nil, List.append_nil]
    | cons d m =>
      obtain ⟨rfl, -⟩ := List.cons.inj hc
      exact .inl ⟨m, ha⟩

theorem byteLength_pos {cs : List Char} (h : cs ≠ []) : 0 < byteLength cs :=
  Nat.pos_of_ne_zero (mt eq_nil_of_byteLength h)

namespace Tiled

variable {before rest : List Char} {ss : List Span} (h : Tiled before rest ss)

include h

/-- No unit begins before what remains. -/
theorem le_start : ∀ s ∈ ss, byteLength before ≤ s.start := by
  induction h with
  | nil =>
    intro s hs
    cases hs
  | @gap before gap rest ss _ _ ih =>
    intro s hs
    have hle := ih s hs
    rw [byteLength_append] at hle
    omega
  | @unit before text gap rest ss _ _ _ ih =>
    intro s hs
    rcases List.mem_cons.1 hs with rfl | hs
    · exact Nat.le_refl _
    · have hle := ih s hs
      rw [byteLength_append] at hle
      omega

/-- **Units are slices of the text in order.** -/
theorem ascending : Ascending (before ++ rest) (byteLength before) ss := by
  induction h with
  | nil => trivial
  | @gap before gap rest ss _ _ ih =>
    rw [List.append_assoc] at ih
    apply ih.mono
    rw [byteLength_append]
    omega
  | @unit before text gap rest ss _ _ _ ih =>
    rw [List.append_assoc] at ih
    refine ⟨Nat.le_refl _, ?_, ih.mono ?_⟩
    · rw [List.append_assoc text, ← List.append_assoc before, slice?_append]
      rfl
    · show byteLength before + byteLength text ≤ _
      rw [byteLength_append, byteLength_append]
      omega

/-- **Units stand in order** and do not overlap. -/
theorem pairwise : ss.Pairwise fun a b => a.start < b.start ∧ a.stop ≤ b.start := by
  induction h with
  | nil => exact .nil
  | gap _ _ ih => exact ih
  | @unit before text gap rest ss htaken _ hrest ih =>
    refine .cons ?_ ih
    intro s hs
    have hle := hrest.le_start s hs
    have hpos := byteLength_pos htaken
    rw [byteLength_append, byteLength_append] at hle
    rw [byteLength_append] at hpos
    constructor
    · show byteLength before < s.start
      omega
    · show byteLength before + byteLength text ≤ s.start
      omega

/-- No unit holds a character that stands before what remains. -/
theorem countP_holds_before (offset : Nat) (c : Char) (hoffset : offset < byteLength before) :
    ss.countP (·.holds offset c) = 0 := by
  refine List.countP_eq_zero.2 fun s hs => ?_
  have hle := h.le_start s hs
  rw [Span.holds, decide_eq_true_iff]
  omega

/-- **Each character that is not blank is in exactly one unit.** -/
theorem countP_holds {pre post : List Char} {c : Char} (hrest : rest = pre ++ c :: post) (hc : isBlank c = false) :
    ss.countP (·.holds (byteLength before + byteLength pre) c) = 1 := by
  have hsize := c.utf8Size_pos
  -- blanks do not hold it
  have hgap : ∀ {gap : List Char}, (∀ x ∈ gap, isBlank x = true) → ∀ {a m : List Char}, gap ≠ a ++ c :: m := by
    rintro gap hgap a m rfl
    have hblank := hgap c (List.mem_append_right a List.mem_cons_self)
    rw [hc] at hblank
    cases hblank
  induction h generalizing pre with
  | nil =>
    cases pre with
    | nil => cases hrest
    | cons p pre => cases hrest
  | @gap before gap rest ss hblank _ ih =>
    rcases append_eq_append_cons hrest with ⟨m, hm⟩ | ⟨m, rfl, hm⟩
    · exact absurd hm (hgap hblank)
    · have hone := ih hm
      rw [byteLength_append] at hone
      rw [byteLength_append, ← Nat.add_assoc]
      exact hone
  | @unit before text gap rest ss _ hblank htail ih =>
    rcases append_eq_append_cons hrest with ⟨m, hm⟩ | ⟨m, rfl, hm⟩
    · rcases append_eq_append_cons hm with ⟨m, rfl⟩ | ⟨m, -, hm⟩
      · -- it is in this unit, and the units behind begin after it
        have hzero := htail.countP_holds_before (byteLength before + byteLength pre) c (by
          simp only [byteLength_append, byteLength_cons]
          omega)
        rw [List.countP_cons_of_pos, hzero]
        rw [Span.holds, decide_eq_true_iff]
        simp only [byteLength_append, byteLength_cons]
        omega
      · exact absurd hm (hgap hblank)
    · -- it is behind this unit
      have hone := ih hm
      rw [byteLength_append, byteLength_append] at hone
      rw [List.countP_cons_of_neg]
      · rw [byteLength_append, byteLength_append, ← Nat.add_assoc]
        exact hone
      · rw [Span.holds, decide_eq_true_iff]
        simp only [byteLength_append]
        omega

end Tiled

end Text

end ThermalLabel

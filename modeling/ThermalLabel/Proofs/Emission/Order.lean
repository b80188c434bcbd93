import Mathlib.Data.Fin.Tuple.Sort
import ThermalLabel.Emission
import ThermalLabel.Proofs.Stacking

/-!
# The order of emission

A permutation of the places of a list stacks its elements (`Stacks`) if none comes before one below it and those of a
level come as they stand. **There is one such permutation** (`existsUnique_stacks`), and it arranges the list as
`stacked` does (`stacked_eq_arranged`).

Lists are stacked alike exactly if they are permutations of each other and have the same levels (`stacked_eq_iff`). Then
they are emitted alike in every language (`emit_in_order`).
-/

namespace ThermalLabel

/-! ## Permutations of places -/

section Places

variable {es : List Element} {σ : Equiv.Perm (Fin es.length)}

/-- The elements in the order in which a permutation names their places. -/
def arranged (es : List Element) (σ : Equiv.Perm (Fin es.length)) : List Element := List.ofFn fun i => es[σ i]

/-- The permutation names no place before that of a lower element, and the places of a level as they stand. -/
structure Stacks (es : List Element) (σ : Equiv.Perm (Fin es.length)) : Prop where
  ordered : ∀ i j, i < j → es[σ i].zOrder ≤ es[σ j].zOrder
  stable : ∀ i j, i < j → es[σ i].zOrder = es[σ j].zOrder → σ i < σ j

/-- It is the permutation that sorts the tuple of stacking orders. -/
theorem stacks_iff : Stacks es σ ↔ σ = Tuple.sort fun i : Fin es.length => es[i].zOrder.toInt := by
  rw [Tuple.eq_sort_iff]
  constructor
  · rintro ⟨hordered, hstable⟩
    constructor
    · intro i j hij
      rcases hij.eq_or_lt with rfl | hij
      · exact le_refl _
      · exact Int32.le_iff_toInt_le.1 (hordered i j hij)
    · intro i j hij hz
      exact hstable i j hij (Int32.toInt_inj.1 hz)
  · rintro ⟨hmono, hstable⟩
    constructor
    · intro i j hij
      exact Int32.le_iff_toInt_le.2 (hmono hij.le)
    · intro i j hij hz
      exact hstable i j hij (congrArg Int32.toInt hz)

/-- **One permutation stacks the elements.** -/
theorem existsUnique_stacks (es : List Element) : ∃! σ, Stacks es σ :=
  ⟨_, stacks_iff.2 rfl, fun _ h => stacks_iff.1 h⟩

theorem arranged_eq_map (es : List Element) (σ : Equiv.Perm (Fin es.length)) :
    arranged es σ = (List.ofFn σ).map fun i => es[i] :=
  List.map_ofFn.symm

theorem Stacks.inStackingOrder (h : Stacks es σ) : InStackingOrder (arranged es σ) :=
  List.pairwise_ofFn.2 fun i j hij => h.ordered i j hij

/-- The places of a level are named in the order of the list. -/
theorem Stacks.filter_places (h : Stacks es σ) (z : Int32) :
    (List.ofFn σ).filter (fun i => es[i].zOrder = z) = (List.finRange es.length).filter fun i => es[i].zOrder = z := by
  have hperm : (List.ofFn σ).Perm (List.finRange es.length) := by
    rw [← List.ofFn_id]
    exact σ.ofFn_comp_perm id
  have hnamed : ((List.ofFn σ).filter fun i => es[i].zOrder = z).Pairwise (· < ·) := by
    rw [List.pairwise_filter, List.pairwise_ofFn]
    intro i j hij hi hj
    exact h.stable i j hij ((of_decide_eq_true hi).trans (of_decide_eq_true hj).symm)
  have hlisted : ((List.finRange es.length).filter fun i => es[i].zOrder = z).Pairwise (· < ·) :=
    (List.pairwise_lt_finRange es.length).filter _
  -- ascending lists with the same members are the same
  apply (hperm.filter _).eq_of_pairwise _ hnamed hlisted
  intro i j _ _ hij hji
  exact absurd hij (lt_asymm hji)

/-- The elements of a level come as they stand. -/
theorem Stacks.level_arranged (h : Stacks es σ) (z : Int32) : level z (arranged es σ) = level z es := by
  calc level z (arranged es σ)
      = ((List.ofFn σ).filter fun i => es[i].zOrder = z).map fun i => es[i] := by
        rw [arranged_eq_map, level, List.filter_map]
        rfl
    _ = ((List.finRange es.length).filter fun i => es[i].zOrder = z).map fun i => es[i] := by rw [h.filter_places]
    _ = level z ((List.finRange es.length).map fun i => es[i]) := by
        rw [level, List.filter_map]
        rfl
    _ = level z es := congrArg (level z) (List.map_getElem_finRange es)

/-- **The permutation that stacks the elements** arranges them in stacking order. -/
theorem stacked_eq_arranged (h : Stacks es σ) : stacked es = arranged es σ := by
  apply eq_of_levels (inStackingOrder_stacked es) h.inStackingOrder
  intro z
  rw [level_stacked, h.level_arranged]

end Places

/-! ## Lists that are stacked alike -/

/-- **Lists are stacked alike** exactly if they have the same elements, and those of each level in the same order. -/
theorem stacked_eq_iff {as bs : List Element} :
    stacked as = stacked bs ↔ as.Perm bs ∧ ∀ z, level z as = level z bs := by
  constructor
  · intro h
    constructor
    · have hperm : (stacked as).Perm bs := h ▸ perm_stacked bs
      exact (perm_stacked as).symm.trans hperm
    · intro z
      rw [← level_stacked z as, h, level_stacked]
  · rintro ⟨-, hlevels⟩
    apply eq_of_levels (inStackingOrder_stacked as) (inStackingOrder_stacked bs)
    intro z
    rw [level_stacked, level_stacked, hlevels]

/-- A program, its notes and its counts depend on the elements in stacking order only. -/
theorem emit_eq_of_stacked {as bs : List Element} (h : stacked as = stacked bs) (l : Language) (stock : Stock) :
    emit l stock as = emit l stock bs := by
  unfold emit
  rw [h]

/--
**Elements are emitted in stacking order**, and their order in the list matters in no other way. One permutation of a
list puts no element before one below it and leaves those of each level as they stand; it is the order of emission. So
lists that differ only in how elements of different levels stand to each other are emitted alike.
-/
theorem emit_in_order :
    (∀ es : List Element, ∃ σ, stacked es = arranged es σ ∧ Stacks es σ ∧ ∀ τ, Stacks es τ → τ = σ) ∧
      (∀ as bs : List Element, stacked as = stacked bs ↔ as.Perm bs ∧ ∀ z, level z as = level z bs) ∧
      ∀ as bs : List Element, as.Perm bs → (∀ z, level z as = level z bs) →
        ∀ (l : Language) (stock : Stock), emit l stock as = emit l stock bs := by
  refine ⟨?_, fun as bs => stacked_eq_iff, ?_⟩
  · intro es
    obtain ⟨σ, hσ, hunique⟩ := existsUnique_stacks es
    exact ⟨σ, stacked_eq_arranged hσ, hσ, hunique⟩
  · intro as bs hperm hlevels l stock
    exact emit_eq_of_stacked (stacked_eq_iff.2 ⟨hperm, hlevels⟩) l stock

/-- A frame may stand before or between two texts below it, but the texts, which are on one level, keep their order. -/
theorem emit_in_order_of_frame :
    let stock : Stock := ⟨.ofNat 50, .ofNat 25, 203, .ofNat 2, by decide, by decide, by decide, by decide⟩
    let frame : Element := { id := 1, zOrder := 7, position := ⟨0, 0⟩, size := ⟨90, 60⟩, kind := .box ⟨⟨3, by decide⟩⟩ }
    let first : Element :=
      { id := 2, zOrder := -1, position := ⟨5, 6⟩, content := "a", kind := .text { size := .atLeastOne 20 } }
    let second : Element := { first with id := 3, content := "b" }
    [frame, first, second].Perm [first, frame, second] ∧
      (∀ z, level z [frame, first, second] = level z [first, frame, second]) ∧
      emit .tspl stock [frame, first, second] = emit .tspl stock [first, frame, second] := by
  intro stock frame first second
  have hperm : [frame, first, second].Perm [first, frame, second] := List.Perm.swap _ _ _
  have hlevels : ∀ z, level z [frame, first, second] = level z [first, frame, second] := by
    intro z
    by_cases hz : (7 : Int32) = z
    · subst hz
      decide
    · simp [level, List.filter_cons, frame, hz]
  exact ⟨hperm, hlevels, emit_in_order.2.2 _ _ hperm hlevels .tspl stock⟩

end ThermalLabel

import ThermalLabel.Element

/-!
# Stacking order

Stacking puts no element below one before it (`inStackingOrder_stacked`) and leaves the elements of each level as they
stand in the list (`level_stacked`). **The levels determine a list in stacking order** (`eq_of_levels`), so it is the
same to leave elements out before stacking or after it (`stacked_filter`).
-/

namespace ThermalLabel

/-- No element is stacked below one before it. -/
def InStackingOrder (es : List Element) : Prop := es.Pairwise fun a b => a.zOrder ≤ b.zOrder

/-! ## Levels -/

/-- The elements of one level, in list order. -/
def level (z : Int32) (es : List Element) : List Element := es.filter fun e => e.zOrder = z

theorem mem_level {z : Int32} {es : List Element} {e : Element} : e ∈ level z es ↔ e ∈ es ∧ e.zOrder = z := by
  simp [level]

theorem level_cons (z : Int32) (e : Element) (es : List Element) :
    level z (e :: es) = if e.zOrder = z then e :: level z es else level z es := by
  simp [level, List.filter_cons]

/-- The first element is on the lowest level. -/
theorem InStackingOrder.head_le {a e : Element} {as : List Element} (h : InStackingOrder (a :: as))
    (he : e ∈ a :: as) : a.zOrder ≤ e.zOrder := by
  rcases List.mem_cons.1 he with rfl | he
  · exact Int32.le_refl _
  · exact (List.pairwise_cons.1 h).1 e he

/-- **Lists in stacking order with the same levels are the same.** -/
theorem eq_of_levels : ∀ {as bs : List Element}, InStackingOrder as → InStackingOrder bs →
    (∀ z, level z as = level z bs) → as = bs
  | [], [], _, _, _ => rfl
  | [], b :: bs, _, _, h => by
    have hb := h b.zOrder
    rw [level_cons, if_pos rfl] at hb
    cases hb
  | a :: as, [], _, _, h => by
    have ha := h a.zOrder
    rw [level_cons, if_pos rfl] at ha
    cases ha
  | a :: as, b :: bs, ha, hb, h => by
    have hb_mem : b ∈ a :: as := (mem_level.1 (h b.zOrder ▸ mem_level.2 ⟨List.mem_cons_self, rfl⟩)).1
    have ha_mem : a ∈ b :: bs := (mem_level.1 (h a.zOrder ▸ mem_level.2 ⟨List.mem_cons_self, rfl⟩)).1
    have hz : a.zOrder = b.zOrder := Int32.le_antisymm (ha.head_le hb_mem) (hb.head_le ha_mem)
    have hfirst := h a.zOrder
    rw [level_cons, level_cons, if_pos rfl, if_pos hz.symm] at hfirst
    obtain rfl : a = b := (List.cons.inj hfirst).1
    congr 1
    refine eq_of_levels (List.pairwise_cons.1 ha).2 (List.pairwise_cons.1 hb).2 fun z => ?_
    have hlevel := h z
    rw [level_cons, level_cons] at hlevel
    split at hlevel
    · exact (List.cons.inj hlevel).2
    · exact hlevel

/-! ## Stacking -/

theorem zOrder_trans (a b c : Element) (hab : decide (a.zOrder ≤ b.zOrder) = true)
    (hbc : decide (b.zOrder ≤ c.zOrder) = true) : decide (a.zOrder ≤ c.zOrder) = true :=
  decide_eq_true (Int32.le_trans (of_decide_eq_true hab) (of_decide_eq_true hbc))

theorem zOrder_total (a b : Element) : (decide (a.zOrder ≤ b.zOrder) || decide (b.zOrder ≤ a.zOrder)) = true := by
  rw [Bool.or_eq_true, decide_eq_true_eq, decide_eq_true_eq]
  exact Int32.le_total _ _

theorem inStackingOrder_stacked (es : List Element) : InStackingOrder (stacked es) :=
  (List.pairwise_mergeSort zOrder_trans zOrder_total es).imp of_decide_eq_true

theorem perm_stacked (es : List Element) : (stacked es).Perm es := List.mergeSort_perm _ _

/-- Stacking keeps the order of the elements of a level. -/
theorem level_stacked (z : Int32) (es : List Element) : level z (stacked es) = level z es := by
  have heq : (level z es).Pairwise fun a b => decide (a.zOrder ≤ b.zOrder) = true := by
    refine List.pairwise_of_forall_mem_list fun a ha b hb => decide_eq_true ?_
    rw [(mem_level.1 ha).2, (mem_level.1 hb).2]
    exact Int32.le_refl z
  have hsub : (level z es).Sublist (stacked es) :=
    List.sublist_mergeSort zOrder_trans zOrder_total heq List.filter_sublist
  have hlevel : (level z es).Sublist (level z (stacked es)) := by
    have hself : level z (level z es) = level z es := by simp [level]
    rw [← hself]
    exact hsub.filter _
  exact (hlevel.eq_of_length ((perm_stacked es).filter _).length_eq.symm).symm

/-- **Elements may be left out before stacking or after it.** -/
theorem stacked_filter (p : Element → Bool) (es : List Element) : stacked (es.filter p) = (stacked es).filter p := by
  have hcomm : ∀ (z : Int32) (xs : List Element), level z (xs.filter p) = (level z xs).filter p := by
    intro z xs
    rw [level, level, List.filter_filter, List.filter_filter]
    exact List.filter_congr fun e _ => Bool.and_comm _ _
  refine eq_of_levels (inStackingOrder_stacked _) ((inStackingOrder_stacked es).filter _) fun z => ?_
  rw [level_stacked, hcomm, hcomm, level_stacked]

end ThermalLabel

import Mathlib.Data.List.Forall2
import ThermalLabel.Proofs.Conversion.Regeneration
import ThermalLabel.Proofs.Emission.Account

/-!
# Lists related element by element

What is recovered is compared with what was written element by element and in order: some elements have no partner
(`forall₂_filter_filterMap`), numbers do not count (`forall₂_renumbered`), and comparisons compose (`forall₂_trans`).
So the elements that a language can express are related to those read from their program if each is related to what is
kept of it (`forall₂_recover_emit`).
-/

namespace ThermalLabel

/-- Lists that are related element by element, where those without partner are left out. -/
theorem forall₂_filter_filterMap {α β : Type} {R : α → β → Prop} {p : α → Bool} {f : α → Option β} : ∀ {xs : List α},
    (∀ x ∈ xs, (f x).isSome = p x) → (∀ x ∈ xs, ∀ y, f x = some y → R x y) →
      List.Forall₂ R (xs.filter p) (xs.filterMap f)
  | [], _, _ => .nil
  | x :: xs, hp, hR => by
    have ih := forall₂_filter_filterMap (fun y hy => hp y (List.mem_cons_of_mem _ hy)) fun y hy =>
      hR y (List.mem_cons_of_mem _ hy)
    have hx := hp x List.mem_cons_self
    cases hf : f x with
    | none =>
      rw [hf] at hx
      rw [List.filter_cons_of_neg (by simp [← hx]), List.filterMap_cons_none hf]
      exact ih
    | some y =>
      rw [hf] at hx
      rw [List.filter_cons_of_pos hx.symm, List.filterMap_cons_some hf]
      exact .cons (hR x List.mem_cons_self y hf) ih

/-- Numbers are not carried. -/
theorem forall₂_renumbered {α : Type} {R : α → Element → Prop} (hR : ∀ a k index, R a k → R a (k.numbered index))
    {as : List α} {ks : List Element} (h : List.Forall₂ R as ks) : List.Forall₂ R as (renumbered ks) := by
  rw [List.forall₂_iff_get] at h ⊢
  obtain ⟨hlength, hget⟩ := h
  refine ⟨by rw [hlength, renumbered, List.length_mapIdx], ?_⟩
  intro i hi hi'
  have hk := hget i hi (hlength ▸ hi)
  simp only [List.get_eq_getElem, renumbered, List.getElem_mapIdx] at hk ⊢
  exact hR _ _ _ hk

theorem forall₂_trans {α β γ : Type} {R : α → β → Prop} {S : β → γ → Prop} {T : α → γ → Prop}
    (hT : ∀ a b c, R a b → S b c → T a c) {as : List α} {bs : List β} {cs : List γ} (h : List.Forall₂ R as bs)
    (h' : List.Forall₂ S bs cs) : List.Forall₂ T as cs := by
  induction h generalizing cs with
  | nil =>
    cases h'
    exact .nil
  | cons hab _ ih =>
    cases h' with
    | cons hbc hrest => exact .cons (hT _ _ _ hab hbc) (ih hrest)

/-- **What is read back from a program** is related to what was written as what is kept of each element is. -/
theorem forall₂_recover_emit {R : Element → Element → Prop} (l : Language) (stock : Stock) (es : List Element)
    (hR : ∀ e k index, R e k → R e (k.numbered index)) (h : ∀ e ∈ es, ∀ k, l.kept? e = some k → R e k) :
    List.Forall₂ R ((stacked es).filter l.expresses) (recover l (emit l stock es).program).elements := by
  have hread : (recover l (emit l stock es).program).elements = renumbered ((stacked es).filterMap l.kept?) :=
    congrArg Recovered.elements (recover_emit l stock es)
  rw [hread]
  refine forall₂_renumbered hR (forall₂_filter_filterMap ?_ ?_)
  · intro e _
    rw [← Language.isSome_line?]
    exact isSome_kept? l e
  · intro e he
    exact h e ((perm_stacked es).mem_iff.1 he)

end ThermalLabel

import ThermalLabel.Proofs.Design.Operation

/-!
# Fresh ids

The ids used up to a time are those that were handed out and those that an element has had (`Design.used`). Each stays
below the counter until the largest word is one of them (`Design.addWord_one_le_of_mem_used`). **An id is fresh when it
is handed out exactly if the largest word has not been used**, and from then on that word is handed out again and again
(`Design.freshNext_iff`).
-/

namespace ThermalLabel

/-! ## Used ids -/

/-- The ids that an operation with an answer hands out. -/
def Operation.handedOut : Operation → Except InvalidValue Reply → List UInt32
  | .reserveId, .ok (.id id) => [id]
  | _, _ => []

namespace Design

/-- The ids that are handed out or that an element has while operations are done. -/
def used (d : Design) : List Operation → List UInt32
  | [] => d.ids
  | op :: ops => d.ids ++ op.handedOut (d.perform op).1 ++ (d.perform op).2.used ops

theorem ids_run_subset_used (d : Design) (ops : List Operation) : (d.run ops).ids ⊆ d.used ops := by
  induction ops generalizing d with
  | nil => exact List.Subset.refl _
  | cons op ops ih => exact List.subset_append_of_subset_right _ (ih _)

/-- An id that is handed out is below the counter afterwards. -/
theorem Performed.addWord_one_le_of_mem_handedOut {d d' : Design} {op : Operation} {reply : Except InvalidValue Reply}
    (h : Performed d op reply d') {id : UInt32} (hid : id ∈ op.handedOut reply) : addWord id 1 ≤ d'.nextId := by
  cases h with
  | reserved helements hstock hnext =>
    rw [List.mem_singleton.1 hid, hnext]
    exact UInt32.le_refl _
  | inserted | duplicate | replaced | unknown | removed | missing | restocked =>
    exact absurd hid List.not_mem_nil

/-- Used ids stay below the counter, as far as words reach. -/
theorem addWord_one_le_of_mem_used {d : Design} (hd : d.Counted) {ops : List Operation} {id : UInt32}
    (hid : id ∈ d.used ops) : addWord id 1 ≤ (d.run ops).nextId := by
  induction ops generalizing d with
  | nil => exact hd id hid
  | cons op ops ih =>
    have hstep := d.performed op
    rw [used, List.mem_append, List.mem_append] at hid
    rcases hid with (hid | hid) | hid
    · exact UInt32.le_trans (hd id hid) (nextId_le_run d (op :: ops))
    · exact UInt32.le_trans (hstep.addWord_one_le_of_mem_handedOut hid) (nextId_le_run (d.perform op).2 ops)
    · exact ih (hstep.counted hd) hid

/-! ## Freshness -/

/-- The id to be handed out next is above those used, no element has it, and an element can be added under it. -/
structure FreshNext (d : Design) (used : List UInt32) : Prop where
  above : ∀ id ∈ used, id < d.reserveId.1
  unheld : d.reserveId.1 ∉ d.ids
  insertable : ∀ e, e.id = d.reserveId.1 → ∃ d', d.reserveId.2.insert e = .ok d'

theorem freshNext_of_above {d : Design} {used : List UInt32} (hids : d.ids ⊆ used)
    (habove : ∀ id ∈ used, id < d.nextId) : d.FreshNext used := by
  have hunheld : d.nextId ∉ d.ids := fun hid => UInt32.lt_irrefl _ (habove _ (hids hid))
  refine ⟨habove, hunheld, ?_⟩
  intro e he
  have hnew : e.id ∉ d.reserveId.2.ids := he ▸ hunheld
  obtain ⟨d', hd', -⟩ := insert_of_not_mem hnew
  exact ⟨d', hd'⟩

/-- **Ids are fresh until the largest word is used**, and from then on it is handed out every time. -/
theorem freshNext_iff {stock : Stock} {es : List Element} {d : Design} (h : ofElements stock es = .ok d)
    (ops : List Operation) :
    ((d.run ops).FreshNext (d.used ops) ↔ wordMax ∉ d.used ops) ∧
      (wordMax ∈ d.used ops → (d.run ops).reserveId.1 = wordMax) := by
  have hnext {id : UInt32} (hid : id ∈ d.used ops) : id < (d.run ops).nextId ∨ (d.run ops).nextId = wordMax :=
    addWord_one_le_iff.1 (addWord_one_le_of_mem_used (counted_of_ofElements h) hid)
  constructor
  · constructor
    · intro hfresh hmax
      exact not_wordMax_lt _ (hfresh.above _ hmax)
    · intro hmax
      refine freshNext_of_above (ids_run_subset_used d ops) fun id hid => ?_
      rcases hnext hid with hlt | hend
      · exact hlt
      · rw [hend]
        exact lt_wordMax (ne_of_mem_of_not_mem hid hmax)
  · exact fun hmax => (hnext hmax).resolve_left (not_wordMax_lt _)

/-- After the ids 7 and 20 were used, an id above both is handed out, although 20 is no longer there. -/
theorem freshNext_after_removal :
    let stock : Stock := ⟨.ofNat 50, .ofNat 25, 203, .ofNat 2, by decide, by decide, by decide, by decide⟩
    let e : Element := { id := 7, position := ⟨10, 20⟩, kind := .image }
    let d : Design := ⟨stock, [e], 8, by decide⟩
    let ops : List Operation := [.reserveId, .insert { e with id := 20 }, .remove 20]
    ofElements stock [e] = .ok d ∧ wordMax ∉ d.used ops ∧ (d.run ops).reserveId.1 = 21 ∧
      (d.run ops).FreshNext (d.used ops) := by
  intro stock e d ops
  have hd : ofElements stock [e] = .ok d := ofElements_of_nodup stock d.distinct
  have hmax : wordMax ∉ d.used ops := by decide
  exact ⟨hd, hmax, by decide, (freshNext_iff hd ops).1.2 hmax⟩

/-- Above the largest word there is no id: it is handed out although an element has it. -/
theorem not_freshNext_at_wordMax :
    let stock : Stock := ⟨.ofNat 50, .ofNat 25, 203, .ofNat 2, by decide, by decide, by decide, by decide⟩
    let e : Element := { id := wordMax, position := ⟨10, 20⟩, kind := .image }
    let d : Design := ⟨stock, [e], wordMax, by decide⟩
    ofElements stock [e] = .ok d ∧ d.reserveId.1 = e.id ∧ e.id ∈ d.ids ∧
      d.reserveId.2.insert e = .error (.duplicateId wordMax) ∧ ¬d.FreshNext (d.used []) := by
  intro stock e d
  have hd : ofElements stock [e] = .ok d := ofElements_of_nodup stock d.distinct
  have hid : e.id ∈ d.ids := List.mem_singleton_self e.id
  exact ⟨hd, rfl, hid, insert_of_mem hid, fun hfresh => hfresh.unheld hid⟩

end Design

end ThermalLabel

import Mathlib.Data.List.Induction
import ThermalLabel.Proofs.Design.Arena

/-!
# Designs as maps with a history

A successful operation puts an element under its id or drops an id (`Change`), and a history is a list of such changes.
What an id has after a history is what was put under it last, unless it was dropped since (`PutLast`), and a look-up
that answers so recalls the history (`Recalls`). **After any operations a design is the map of its history**, with
distinct ids in the order in which they came in, and with operations that change one place or nothing
(`Design.lawful_run`).
-/

namespace ThermalLabel

/-! ## Changes -/

/-- A change to a map of elements. -/
inductive Change where
  | put (e : Element)
  | drop (id : UInt32)

namespace Change

/-- The id that a change is about. -/
def id : Change → UInt32
  | put e => e.id
  | drop id => id

/-- What the id has afterwards. -/
def element? : Change → Option Element
  | put e => some e
  | drop _ => none

end Change

/-- The last change about `id` puts `e`. -/
def PutLast (history : List Change) (id : UInt32) (e : Element) : Prop :=
  ∃ before after, history = before ++ .put e :: after ∧ e.id = id ∧ ∀ c ∈ after, c.id ≠ id

theorem putLast_nil {id : UInt32} {e : Element} : ¬PutLast [] id e := by
  rintro ⟨before, after, hsplit, -⟩
  exact absurd hsplit.symm (List.append_ne_nil_of_right_ne_nil _ (List.cons_ne_nil _ _))

/-- The change that puts last is the last of all, or comes before it. -/
theorem putLast_concat {history : List Change} {c : Change} {id : UInt32} {e : Element} :
    PutLast (history ++ [c]) id e ↔ c = .put e ∧ e.id = id ∨ PutLast history id e ∧ c.id ≠ id := by
  constructor
  · rintro ⟨before, after, hsplit, hid, hafter⟩
    rcases List.eq_nil_or_concat' after with rfl | ⟨after, c', rfl⟩
    · obtain ⟨-, hc⟩ := List.append_inj' hsplit rfl
      exact .inl ⟨List.head_eq_of_cons_eq hc, hid⟩
    · rw [← List.cons_append, ← List.append_assoc] at hsplit
      obtain ⟨rfl, hc⟩ := List.append_inj' hsplit rfl
      obtain rfl := List.head_eq_of_cons_eq hc
      rw [List.forall_mem_append] at hafter
      exact .inr ⟨⟨before, after, rfl, hid, hafter.1⟩, hafter.2 c (List.mem_singleton_self c)⟩
  · rintro (⟨rfl, hid⟩ | ⟨⟨before, after, rfl, hid, hafter⟩, hc⟩)
    · exact ⟨history, [], rfl, hid, List.forall_mem_nil _⟩
    · refine ⟨before, after ++ [c], by rw [List.append_assoc, List.cons_append], hid, ?_⟩
      rw [List.forall_mem_append, List.forall_mem_singleton]
      exact ⟨hafter, hc⟩

/-! ## Look-ups -/

/-- A look-up finds what was put last. -/
def Recalls (look : UInt32 → Option Element) (history : List Change) : Prop :=
  ∀ id e, look id = some e ↔ PutLast history id e

theorem recalls_nil : Recalls (fun _ => none) [] := fun _ _ => ⟨nofun, fun h => absurd h putLast_nil⟩

/-- A change is recalled by a look-up that differs as the change says. -/
theorem Recalls.concat {look look' : UInt32 → Option Element} {history : List Change} (h : Recalls look history)
    {c : Change} (hc : ∀ id, look' id = if c.id = id then c.element? else look id) :
    Recalls look' (history ++ [c]) := by
  intro id e
  rw [hc id, putLast_concat]
  by_cases hid : c.id = id
  · rw [if_pos hid]
    cases c with
    | put x | drop id' => grind [Change.element?, Change.id]
  · rw [if_neg hid, h id e]
    grind [Change.id]

/-! ## Look-ups in lists -/

/-- A new element at the end is found, and so are the others. -/
theorem firstWith_concat {es : List Element} {e : Element} (h : e.id ∉ es.map Element.id) (id : UInt32) :
    firstWith (es ++ [e]) id = if e.id = id then some e else firstWith es id := by
  have happend : firstWith (es ++ [e]) id = (firstWith es id).or (firstWith [e] id) := List.find?_append
  rw [happend]
  split
  · rename_i hid
    have hfound : firstWith [e] id = some e := List.find?_cons_of_pos (decide_eq_true hid)
    rw [firstWith_of_not_mem (hid ▸ h), Option.none_or, hfound]
  · rename_i hid
    have hnone : firstWith [e] id = none := List.find?_cons_of_neg (by simpa using hid)
    rw [hnone, Option.or_none]

namespace Slot

variable {es before after : List Element} {id : UInt32} {e : Element} (h : Slot es id before e after)
include h

/-- Other ids are looked up among the others. -/
theorem firstWith_ne {id' : UInt32} (hne : id ≠ id') : firstWith es id' = firstWith (before ++ after) id' := by
  have he : e.id ≠ id' := h.id_eq.symm ▸ hne
  rw [firstWith, firstWith, h.split, List.find?_append, List.find?_append, List.find?_cons_of_neg (by simpa using he)]

/-- A replacement is found in the slot, and the others where they were. -/
theorem firstWith_replaced {e' : Element} (he' : e'.id = id) (id' : UInt32) :
    firstWith (before ++ e' :: after) id' = if id = id' then some e' else firstWith es id' := by
  have hslot : Slot (before ++ e' :: after) id before e' after := ⟨rfl, he', h.others⟩
  split
  · rename_i hid
    exact hid ▸ hslot.firstWith_eq
  · rename_i hid
    rw [hslot.firstWith_ne hid, h.firstWith_ne hid]

/-- What was removed is not found, and the others are. -/
theorem firstWith_removed (id' : UInt32) :
    firstWith (before ++ after) id' = if id = id' then none else firstWith es id' := by
  split
  · rename_i hid
    refine firstWith_of_not_mem fun hmem => ?_
    obtain ⟨x, hx, hxid⟩ := List.mem_map.1 hmem
    exact h.others x hx (hxid.trans hid.symm)
  · rename_i hid
    exact (h.firstWith_ne hid).symm

end Slot

/-- A list without repeated ids recalls the putting of its elements. -/
theorem recalls_puts {es : List Element} (h : (es.map Element.id).Nodup) : Recalls (firstWith es) (es.map .put) := by
  induction es using List.reverseRecOn with
  | nil => exact recalls_nil
  | append_singleton es e ih =>
    rw [List.map_append, List.nodup_append] at h
    obtain ⟨hes, -, hne⟩ := h
    have hnew : e.id ∉ es.map Element.id := fun hmem => hne _ hmem _ (List.mem_singleton_self _) rfl
    rw [List.map_append]
    exact (ih hes).concat (firstWith_concat hnew)

/-! ## Histories of designs -/

/-- The changes of an operation that does not fail. -/
def Operation.changes : Operation → List Change
  | .insert e | .replace e => [.put e]
  | .remove id => [.drop id]
  | .reserveId | .restock _ => []

/-- The changes of an operation with an answer. -/
def Operation.changed (op : Operation) : Except InvalidValue Reply → List Change
  | .ok _ => op.changes
  | .error _ => []

namespace Design

/-- The changes that operations make one after another. -/
def changes (d : Design) : List Operation → List Change
  | [] => []
  | op :: ops => op.changed (d.perform op).1 ++ (d.perform op).2.changes ops

/-- **An operation is recalled.** -/
theorem Performed.recalls {d d' : Design} {op : Operation} {reply : Except InvalidValue Reply}
    (h : Performed d op reply d') {history : List Change} (hd : Recalls d.get? history) :
    Recalls d'.get? (history ++ op.changed reply) := by
  rw [get?_eq_firstWith] at hd ⊢
  cases h with
  | reserved helements hstock hnext | restocked helements hstock hnext =>
    rw [Operation.changed, Operation.changes, List.append_nil, helements]
    exact hd
  | inserted hid helements hstock hnext =>
    rw [helements]
    exact hd.concat (firstWith_concat hid)
  | duplicate hid | unknown hid =>
    rw [Operation.changed, List.append_nil]
    exact hd
  | replaced hslot helements hstock hnext =>
    rw [helements]
    exact hd.concat (hslot.firstWith_replaced rfl)
  | removed hslot helements hstock hnext =>
    rw [helements]
    exact hd.concat hslot.firstWith_removed
  | @missing id hid =>
    refine hd.concat fun id' => ?_
    split
    · rename_i hid'
      obtain rfl : id = id' := hid'
      exact firstWith_of_not_mem hid
    · rfl

/-- Operations are recalled one after another. -/
theorem recalls_run {d : Design} {history : List Change} (hd : Recalls d.get? history) (ops : List Operation) :
    Recalls (d.run ops).get? (history ++ d.changes ops) := by
  induction ops generalizing d history with
  | nil =>
    rw [changes, List.append_nil]
    exact hd
  | cons op ops ih =>
    rw [changes, ← List.append_assoc]
    exact ih ((d.performed op).recalls hd)

/-! ## What holds after every history -/

/-- What a design with a history is, and what its operations do. -/
structure Lawful (d : Design) (history : List Change) : Prop where
  /-- Ids are below the counter, or the counter is at its end. -/
  below : (∀ id ∈ d.ids, id < d.nextId) ∨ d.nextId = wordMax
  /-- An id has what was put under it last and not dropped since. -/
  recalls : Recalls d.get? history
  insert_of_mem : ∀ e, e.id ∈ d.ids → d.insert e = .error (.duplicateId e.id)
  /-- A new element goes to the end. -/
  insert_of_not_mem : ∀ e, e.id ∉ d.ids → ∃ d', d.insert e = .ok d' ∧ d'.elements = d.elements ++ [e] ∧
    d'.stock = d.stock
  replace_of_not_mem : ∀ e, e.id ∉ d.ids → d.replace e = .error (.unknownId e.id)
  /-- A replacement takes the slot of its id, and the old element is the answer. -/
  replace_of_mem : ∀ e, e.id ∈ d.ids → ∃ before old after d', Slot d.elements e.id before old after ∧
    d.replace e = .ok (old, d') ∧ d'.elements = before ++ e :: after ∧ d'.stock = d.stock ∧ d'.nextId = d.nextId
  remove_of_not_mem : ∀ id, id ∉ d.ids → d.remove id = (none, d)
  /-- A removal leaves the others in order. -/
  remove_of_mem : ∀ id, id ∈ d.ids → ∃ before old after d', Slot d.elements id before old after ∧
    d.remove id = (some old, d') ∧ d'.elements = before ++ after ∧ d'.stock = d.stock ∧ d'.nextId = d.nextId
  /-- In place, an operation answers and leaves the same. -/
  inPlace : ∀ op, d.arena.perform op = ((d.perform op).1, (d.perform op).2.arena)
  /-- What fails in place leaves stock, elements and counter as they were. -/
  atomic : ∀ op x a, d.arena.perform op = (.error x, a) → a = d.arena

theorem Counted.lawful {d : Design} {history : List Change} (hcounted : d.Counted) (hrecalls : Recalls d.get? history) :
    d.Lawful history where
  below := counted_iff.1 hcounted
  recalls := hrecalls
  insert_of_mem _ := Design.insert_of_mem
  insert_of_not_mem _ hid :=
    let ⟨d', hd', helements, hstock, _⟩ := Design.insert_of_not_mem hid
    ⟨d', hd', helements, hstock⟩
  replace_of_not_mem _ := Design.replace_of_not_mem
  replace_of_mem _ := Design.replace_of_mem
  remove_of_not_mem _ := Design.remove_of_not_mem
  remove_of_mem _ := Design.remove_of_mem
  inPlace op := Arena.perform_arena d op
  atomic op x a ha := by
    have hreply : (d.perform op).1 = .error x := by
      rw [Arena.perform_arena] at ha
      exact congrArg Prod.fst ha
    rw [Arena.perform_arena_of_error hreply] at ha
    exact (congrArg Prod.snd ha).symm

/-- **A design is a map of its history.** It is taken from a list unless an id is repeated in it, and then the first
element that repeats one is named. After any operations in place, ids are distinct and a lawful design is there. -/
theorem lawful_run (stock : Stock) (es : List Element) :
    ofElements stock [] = .ok (empty stock) ∧
      match ofElements stock es with
      | .error x => ∃ before e after, es = before ++ e :: after ∧ (before.map Element.id).Nodup ∧
          e.id ∈ before.map Element.id ∧ x = .duplicateId e.id
      | .ok d => d.stock = stock ∧ d.elements = es ∧ (es.map Element.id).Nodup ∧
          ∀ ops, ((d.arena.run ops).elements.map Element.id).Nodup ∧ d.arena.run ops = (d.run ops).arena ∧
            (d.run ops).Lawful (es.map .put ++ d.changes ops) := by
  refine ⟨rfl, ?_⟩
  by_cases hes : (es.map Element.id).Nodup
  · rw [ofElements_of_nodup stock hes]
    refine ⟨rfl, rfl, hes, fun ops => ⟨?_, Arena.run_arena _ ops, ?_⟩⟩
    · rw [Arena.run_arena]
      exact (run _ ops).distinct
    · exact ((counted_of_nodup hes).run ops).lawful (recalls_run (recalls_puts hes) ops)
  · obtain ⟨before, e, after, hsplit, hnodup, hmem, hfail⟩ := ofElements_of_not_nodup stock hes
    rw [hfail]
    exact ⟨before, e, after, hsplit, hnodup, hmem, rfl⟩

end Design

end ThermalLabel

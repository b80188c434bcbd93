import Mathlib.Data.List.Nodup
import ThermalLabel.Design
import ThermalLabel.Proofs.Number.Word

/-!
# Operations on designs

A list is taken unless an id is repeated in it, and then the first that repeats one is named
(`Design.ofElements_of_not_nodup`). In a design ids are distinct, so the element with an id has a place of its own among
the others (`Slot`), and each operation acts on this place or at the end of the list (`Design.performed`).
`Design.perform` is one operation, `Design.run` a sequence of them. **Every id stays below the counter** until the
counter is the largest word (`Design.Counted.run`).
-/

namespace ThermalLabel

/-! ## The start -/

/-- The repeated id that is found is that of the first element whose id occurs before. -/
theorem firstRepeated_eq_some {seen : List UInt32} {es : List Element} {id : UInt32}
    (h : firstRepeated seen es = some id) :
    ∃ before e after, es = before ++ e :: after ∧ (before.map Element.id).Nodup ∧ (∀ x ∈ before, x.id ∉ seen) ∧
      (e.id ∈ seen ∨ e.id ∈ before.map Element.id) ∧ e.id = id := by
  induction es generalizing seen with
  | nil => cases h
  | cons x es ih =>
    unfold firstRepeated at h
    split at h
    · rename_i hx
      exact ⟨[], x, es, rfl, List.nodup_nil, List.forall_mem_nil _, .inl hx, Option.some.inj h⟩
    · rename_i hx
      obtain ⟨before, e, after, rfl, hnodup, hseen, hfound, hid⟩ := ih h
      have hnew : ∀ y ∈ before, y.id ≠ x.id ∧ y.id ∉ seen := by
        intro y hy
        rw [← not_or, ← List.mem_cons]
        exact hseen y hy
      refine ⟨x :: before, e, after, rfl, ?_, ?_, ?_, hid⟩
      · rw [List.map_cons, List.nodup_cons, List.mem_map]
        refine ⟨?_, hnodup⟩
        rintro ⟨y, hy, hyx⟩
        exact (hnew y hy).1 hyx
      · rw [List.forall_mem_cons]
        exact ⟨hx, fun y hy => (hnew y hy).2⟩
      · rw [List.map_cons, List.mem_cons]
        rw [List.mem_cons] at hfound
        rcases hfound with (hfound | hfound) | hfound
        · exact .inr (.inl hfound)
        · exact .inl hfound
        · exact .inr (.inr hfound)

namespace Design

/-- A list is the elements of a design if no id is repeated in it. -/
theorem ofElements_of_nodup (stock : Stock) {es : List Element} (h : (es.map Element.id).Nodup) :
    ofElements stock es = .ok ⟨stock, es, idAbove es, h⟩ := by
  have hnone : firstRepeated [] es = none := firstRepeated_eq_none_iff.2 ⟨h, fun e _ => List.not_mem_nil⟩
  unfold ofElements
  split
  · rename_i id hsome
    rw [hnone] at hsome
    cases hsome
  · rfl

/-- Of a list with repeated ids, the first that repeats one is named. -/
theorem ofElements_of_not_nodup (stock : Stock) {es : List Element} (h : ¬(es.map Element.id).Nodup) :
    ∃ before e after, es = before ++ e :: after ∧ (before.map Element.id).Nodup ∧ e.id ∈ before.map Element.id ∧
      ofElements stock es = .error (.duplicateId e.id) := by
  unfold ofElements
  split
  · rename_i id hsome
    obtain ⟨before, e, after, hes, hnodup, hseen, hfound, rfl⟩ := firstRepeated_eq_some hsome
    exact ⟨before, e, after, hes, hnodup, hfound.resolve_left List.not_mem_nil, rfl⟩
  · rename_i hnone
    exact absurd (firstRepeated_eq_none_iff.1 hnone).1 h

end Design

/-! ## Slots -/

/-- The first element of a list with an id. -/
def firstWith (es : List Element) (id : UInt32) : Option Element := es.find? fun e => e.id = id

theorem ne_of_not_mem_ids {es : List Element} {id : UInt32} (h : id ∉ es.map Element.id) : ∀ e ∈ es, e.id ≠ id := by
  rintro e he rfl
  exact h (List.mem_map_of_mem he)

theorem firstWith_of_not_mem {es : List Element} {id : UInt32} (h : id ∉ es.map Element.id) :
    firstWith es id = none :=
  List.find?_eq_none.2 fun e he => by simpa using ne_of_not_mem_ids h e he

/-- The element with an id among the others, none of which has it. -/
structure Slot (es : List Element) (id : UInt32) (before : List Element) (e : Element) (after : List Element) :
    Prop where
  split : es = before ++ e :: after
  id_eq : e.id = id
  others : ∀ x ∈ before ++ after, x.id ≠ id

/-- Where ids are distinct, each has a slot. -/
theorem exists_slot {es : List Element} (hes : (es.map Element.id).Nodup) {id : UInt32} (h : id ∈ es.map Element.id) :
    ∃ before e after, Slot es id before e after := by
  obtain ⟨e, he, rfl⟩ := List.mem_map.1 h
  obtain ⟨before, after, rfl⟩ := List.append_of_mem he
  refine ⟨before, e, after, rfl, rfl, ?_⟩
  intro x hx hid
  rw [List.map_append, List.map_cons, List.nodup_middle, List.nodup_cons, ← List.map_append] at hes
  exact hes.1 (List.mem_map.2 ⟨x, hx, hid⟩)

namespace Slot

variable {es before after : List Element} {id : UInt32} {e : Element} (h : Slot es id before e after)
include h

theorem ne_before : ∀ x ∈ before, x.id ≠ id := fun x hx => h.others x (List.mem_append_left _ hx)

theorem ne_after : ∀ x ∈ after, x.id ≠ id := fun x hx => h.others x (List.mem_append_right _ hx)

theorem firstWith_eq : firstWith es id = some e := by
  have hbefore : before.find? (fun x => x.id = id) = none :=
    List.find?_eq_none.2 fun x hx => by simpa using h.ne_before x hx
  rw [firstWith, h.split, List.find?_append, hbefore, Option.none_or, List.find?_cons_of_pos (by simpa using h.id_eq)]

theorem swapIn_eq {e' : Element} (he' : e'.id = id) : Design.swapIn e' es = before ++ e' :: after := by
  have hbefore : Design.swapIn e' before = before :=
    (List.map_congr_left fun x hx => if_neg (by rw [he']; exact h.ne_before x hx)).trans (List.map_id _)
  have hafter : Design.swapIn e' after = after :=
    (List.map_congr_left fun x hx => if_neg (by rw [he']; exact h.ne_after x hx)).trans (List.map_id _)
  have hsplit : Design.swapIn e' (before ++ e :: after) =
      Design.swapIn e' before ++ (if e.id = e'.id then e' else e) :: Design.swapIn e' after := List.map_append
  rw [h.split, hsplit, hbefore, hafter, if_pos (h.id_eq.trans he'.symm)]

theorem filter_ne_eq : es.filter (fun x => x.id ≠ id) = before ++ after := by
  rw [h.split, List.filter_append, List.filter_cons_of_neg (by simpa using h.id_eq), ← List.filter_append]
  exact List.filter_eq_self.2 fun x hx => by simpa using h.others x hx

end Slot

/-! ## One element -/

namespace Design

theorem insert_of_mem {d : Design} {e : Element} (h : e.id ∈ d.ids) : d.insert e = .error (.duplicateId e.id) :=
  dif_pos h

/-- A new element goes to the end. -/
theorem insert_of_not_mem {d : Design} {e : Element} (h : e.id ∉ d.ids) :
    ∃ d', d.insert e = .ok d' ∧ d'.elements = d.elements ++ [e] ∧ d'.stock = d.stock ∧
      d'.nextId = if d.nextId ≤ e.id then addWord e.id 1 else d.nextId :=
  ⟨_, dif_neg h, rfl, rfl, rfl⟩

theorem get?_eq_firstWith (d : Design) : d.get? = firstWith d.elements := rfl

theorem get?_of_not_mem {d : Design} {id : UInt32} (h : id ∉ d.ids) : d.get? id = none := firstWith_of_not_mem h

theorem replace_of_not_mem {d : Design} {e : Element} (h : e.id ∉ d.ids) :
    d.replace e = .error (.unknownId e.id) := by
  rw [replace, get?_of_not_mem h]

/-- A replacement takes the slot of its id. -/
theorem replace_of_mem {d : Design} {e : Element} (h : e.id ∈ d.ids) :
    ∃ before old after d', Slot d.elements e.id before old after ∧ d.replace e = .ok (old, d') ∧
      d'.elements = before ++ e :: after ∧ d'.stock = d.stock ∧ d'.nextId = d.nextId := by
  obtain ⟨before, old, after, hslot⟩ := exists_slot d.distinct h
  have hget : d.get? e.id = some old := hslot.firstWith_eq
  rw [replace, hget]
  exact ⟨before, old, after, _, hslot, rfl, hslot.swapIn_eq rfl, rfl, rfl⟩

theorem remove_of_not_mem {d : Design} {id : UInt32} (h : id ∉ d.ids) : d.remove id = (none, d) := by
  have hkeep : d.elements.filter (fun x => x.id ≠ id) = d.elements :=
    List.filter_eq_self.2 fun x hx => decide_eq_true (ne_of_not_mem_ids h x hx)
  rw [remove, get?_of_not_mem h]
  obtain ⟨stock, elements, nextId, distinct⟩ := d
  simp only [hkeep]

/-- A removal leaves the others of a slot. -/
theorem remove_of_mem {d : Design} {id : UInt32} (h : id ∈ d.ids) :
    ∃ before old after d', Slot d.elements id before old after ∧ d.remove id = (some old, d') ∧
      d'.elements = before ++ after ∧ d'.stock = d.stock ∧ d'.nextId = d.nextId := by
  obtain ⟨before, old, after, hslot⟩ := exists_slot d.distinct h
  have hget : d.get? id = some old := hslot.firstWith_eq
  rw [remove, hget]
  exact ⟨before, old, after, _, hslot, rfl, hslot.filter_ne_eq, rfl, rfl⟩

end Design

/-! ## Operations -/

/-- What can be done to a design. -/
inductive Operation where
  /-- Reserves an id. -/
  | reserveId
  /-- Adds an element under a new id. -/
  | insert (e : Element)
  /-- Puts an element in place of the one with its id. -/
  | replace (e : Element)
  /-- Takes the element with an id away. -/
  | remove (id : UInt32)
  /-- Puts the design on other stock. -/
  | restock (stock : Stock)

/-- What an operation answers. -/
inductive Reply where
  /-- The id reserved, or that of the element added. -/
  | id (id : UInt32)
  /-- The element that was replaced or removed. -/
  | element (e : Option Element)
  | done
  deriving DecidableEq, Repr

namespace Design

/-- The answer of an operation and the design after it. -/
def perform (d : Design) : Operation → Except InvalidValue Reply × Design
  | .reserveId => (.ok (.id d.reserveId.1), d.reserveId.2)
  | .insert e =>
    match d.insert e with
    | .ok d' => (.ok (.id e.id), d')
    | .error x => (.error x, d)
  | .replace e =>
    match d.replace e with
    | .ok (old, d') => (.ok (.element (some old)), d')
    | .error x => (.error x, d)
  | .remove id => (.ok (.element (d.remove id).1), (d.remove id).2)
  | .restock stock => (.ok .done, d.withStock stock)

/-- The design after operations. -/
def run (d : Design) (ops : List Operation) : Design := ops.foldl (fun d op => (d.perform op).2) d

/-- A fact that holds at the start and that every operation keeps holds at the end. -/
theorem run_induction {P : Design → Prop} {d : Design} (hstart : P d) (hstep : ∀ d op, P d → P (d.perform op).2)
    (ops : List Operation) : P (d.run ops) :=
  List.foldlRecOn ops _ hstart fun d hd op _ => hstep d op hd

/-! ## What one operation does -/

/-- What an operation on a design can answer, and how the design after it differs. -/
inductive Performed (d : Design) : Operation → Except InvalidValue Reply → Design → Prop
  | reserved {d' : Design} : d'.elements = d.elements → d'.stock = d.stock → d'.nextId = addWord d.nextId 1 →
      Performed d .reserveId (.ok (.id d.nextId)) d'
  | inserted {e : Element} {d' : Design} : e.id ∉ d.ids → d'.elements = d.elements ++ [e] → d'.stock = d.stock →
      d'.nextId = (if d.nextId ≤ e.id then addWord e.id 1 else d.nextId) →
        Performed d (.insert e) (.ok (.id e.id)) d'
  | duplicate {e : Element} : e.id ∈ d.ids → Performed d (.insert e) (.error (.duplicateId e.id)) d
  | replaced {e old : Element} {before after : List Element} {d' : Design} : Slot d.elements e.id before old after →
      d'.elements = before ++ e :: after → d'.stock = d.stock → d'.nextId = d.nextId →
        Performed d (.replace e) (.ok (.element (some old))) d'
  | unknown {e : Element} : e.id ∉ d.ids → Performed d (.replace e) (.error (.unknownId e.id)) d
  | removed {id : UInt32} {old : Element} {before after : List Element} {d' : Design} :
      Slot d.elements id before old after → d'.elements = before ++ after → d'.stock = d.stock →
        d'.nextId = d.nextId → Performed d (.remove id) (.ok (.element (some old))) d'
  | missing {id : UInt32} : id ∉ d.ids → Performed d (.remove id) (.ok (.element none)) d
  | restocked {stock : Stock} {d' : Design} : d'.elements = d.elements → d'.stock = stock → d'.nextId = d.nextId →
      Performed d (.restock stock) (.ok .done) d'

/-- **Every operation does one of these things.** -/
theorem performed (d : Design) (op : Operation) : Performed d op (d.perform op).1 (d.perform op).2 := by
  cases op with
  | reserveId => exact .reserved rfl rfl rfl
  | insert e =>
    by_cases h : e.id ∈ d.ids
    · rw [perform, insert_of_mem h]
      exact .duplicate h
    · obtain ⟨d', hd', helements, hstock, hnext⟩ := insert_of_not_mem h
      rw [perform, hd']
      exact .inserted h helements hstock hnext
  | replace e =>
    by_cases h : e.id ∈ d.ids
    · obtain ⟨before, old, after, d', hslot, hd', helements, hstock, hnext⟩ := replace_of_mem h
      rw [perform, hd']
      exact .replaced hslot helements hstock hnext
    · rw [perform, replace_of_not_mem h]
      exact .unknown h
  | remove id =>
    by_cases h : id ∈ d.ids
    · obtain ⟨before, old, after, d', hslot, hd', helements, hstock, hnext⟩ := remove_of_mem h
      rw [perform, hd']
      exact .removed hslot helements hstock hnext
    · rw [perform, remove_of_not_mem h]
      exact .missing h
  | restock stock => exact .restocked rfl rfl rfl

namespace Performed

variable {d d' : Design} {op : Operation} {reply : Except InvalidValue Reply} (h : Performed d op reply d')
include h

/-- **What fails changes nothing.** -/
theorem unchanged {x : InvalidValue} (hx : reply = .error x) : d' = d := by
  cases h with
  | duplicate | unknown => rfl
  | reserved | inserted | replaced | removed | missing | restocked => cases hx

/-- An id after an operation was there before, or is that of an element added. -/
theorem mem_ids {id : UInt32} (hid : id ∈ d'.ids) : id ∈ d.ids ∨ ∃ e, op = .insert e ∧ e.id ∉ d.ids ∧ id = e.id := by
  cases h with
  | duplicate | unknown | missing => exact .inl hid
  | reserved helements hstock hnext | restocked helements hstock hnext =>
    rw [ids, helements] at hid
    exact .inl hid
  | @inserted e _ hnew helements hstock hnext =>
    rw [ids, helements, List.map_append] at hid
    rcases List.mem_append.1 hid with hid | hid
    · exact .inl hid
    · exact .inr ⟨e, rfl, hnew, List.mem_singleton.1 hid⟩
  | replaced hslot helements hstock hnext =>
    rw [ids, helements, List.map_append, List.map_cons, ← hslot.id_eq] at hid
    rw [ids, hslot.split, List.map_append, List.map_cons]
    exact .inl hid
  | removed hslot helements hstock hnext =>
    rw [ids, helements, List.map_append] at hid
    rw [ids, hslot.split, List.map_append, List.map_cons]
    refine .inl (List.mem_append.2 ((List.mem_append.1 hid).imp_right fun hafter => ?_))
    exact List.mem_cons_of_mem _ hafter

end Performed

end Design

/-! ## The counter -/

namespace Design

/-- The id after that of any element is not above the counter. -/
def Counted (d : Design) : Prop := ∀ id ∈ d.ids, addWord id 1 ≤ d.nextId

/-- Ids are below the counter, or the counter is at its end. -/
theorem counted_iff {d : Design} : d.Counted ↔ (∀ id ∈ d.ids, id < d.nextId) ∨ d.nextId = wordMax := by
  constructor
  · intro h
    by_cases hmax : d.nextId = wordMax
    · exact .inr hmax
    · exact .inl fun id hid => (addWord_one_le_iff.1 (h id hid)).resolve_right hmax
  · rintro (h | h)
    · exact fun id hid => addWord_one_le_iff.2 (.inl (h id hid))
    · exact fun _ _ => addWord_one_le_iff.2 (.inr h)

/-- The search for the counter's start only goes up, and passes every id. -/
theorem le_foldl_addWord_one (es : List Element) (n : UInt32) :
    n ≤ es.foldl (fun n e => max n (addWord e.id 1)) n ∧
      ∀ e ∈ es, addWord e.id 1 ≤ es.foldl (fun n e => max n (addWord e.id 1)) n := by
  induction es generalizing n with
  | nil => exact ⟨UInt32.le_refl n, List.forall_mem_nil _⟩
  | cons e es ih =>
    obtain ⟨hle, hes⟩ := ih (max n (addWord e.id 1))
    rw [List.foldl_cons, List.forall_mem_cons]
    exact ⟨UInt32.le_trans (le_max_word_left _ _) hle, UInt32.le_trans (le_max_word_right _ _) hle, hes⟩

/-- The counter starts above the ids of the list. -/
theorem addWord_one_le_idAbove {es : List Element} : ∀ e ∈ es, addWord e.id 1 ≤ idAbove es :=
  (le_foldl_addWord_one es 1).2

/-- The design of a list starts with its ids below the counter. -/
theorem counted_of_nodup {stock : Stock} {es : List Element} (h : (es.map Element.id).Nodup) :
    Counted ⟨stock, es, idAbove es, h⟩ := by
  intro id hid
  obtain ⟨e, he, rfl⟩ := List.mem_map.1 hid
  exact addWord_one_le_idAbove e he

theorem counted_of_ofElements {stock : Stock} {es : List Element} {d : Design} (h : ofElements stock es = .ok d) :
    d.Counted := by
  by_cases hes : (es.map Element.id).Nodup
  · rw [ofElements_of_nodup stock hes] at h
    cases h
    exact counted_of_nodup hes
  · obtain ⟨before, e, after, -, -, -, hfail⟩ := ofElements_of_not_nodup stock hes
    rw [hfail] at h
    cases h

/-- **The counter never goes down.** -/
theorem Performed.nextId_le {d d' : Design} {op : Operation} {reply : Except InvalidValue Reply}
    (h : Performed d op reply d') : d.nextId ≤ d'.nextId := by
  cases h with
  | reserved helements hstock hnext =>
    rw [hnext]
    exact le_addWord_one d.nextId
  | inserted hid helements hstock hnext =>
    rw [hnext]
    split
    · rename_i hle
      exact UInt32.le_trans hle (le_addWord_one _)
    · exact UInt32.le_refl _
  | replaced hslot helements hstock hnext | removed hslot helements hstock hnext | restocked helements hstock hnext =>
    rw [hnext]
    exact UInt32.le_refl _
  | duplicate | unknown | missing => exact UInt32.le_refl _

/-- An element that is added is below the counter afterwards. -/
theorem Performed.insert_le {d d' : Design} {e : Element} {reply : Except InvalidValue Reply}
    (h : Performed d (.insert e) reply d') (hnew : e.id ∉ d.ids) : addWord e.id 1 ≤ d'.nextId := by
  cases h with
  | duplicate hid => exact absurd hid hnew
  | inserted hid helements hstock hnext =>
    rw [hnext]
    split
    · exact UInt32.le_refl _
    · rename_i hgt
      exact addWord_one_le_iff.2 (.inl (UInt32.not_le.1 hgt))

/-- **Operations keep ids below the counter.** -/
theorem Performed.counted {d d' : Design} {op : Operation} {reply : Except InvalidValue Reply}
    (h : Performed d op reply d') (hd : d.Counted) : d'.Counted := by
  intro id hid
  rcases h.mem_ids hid with hid | ⟨e, rfl, hnew, rfl⟩
  · exact UInt32.le_trans (hd id hid) h.nextId_le
  · exact h.insert_le hnew

theorem nextId_le_run (d : Design) (ops : List Operation) : d.nextId ≤ (d.run ops).nextId :=
  run_induction (UInt32.le_refl _) (fun d' op hle => UInt32.le_trans hle (d'.performed op).nextId_le) ops

theorem Counted.run {d : Design} (h : d.Counted) (ops : List Operation) : (d.run ops).Counted :=
  run_induction h (fun d op hd => (d.performed op).counted hd) ops

end Design

end ThermalLabel

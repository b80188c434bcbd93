import ThermalLabel.Proofs.Design.Operation
import ThermalLabel.Proofs.InPlace

/-!
# Designs in place

An arena is a design as its memory sees it: the same data with nothing known of the ids. Operations change it in place,
look for an id from the front and stop at the first that has it, and a failure leaves behind whatever was changed before
it. On the arena of a design **they answer and leave what the operations on designs do** (`Arena.perform_arena`).
-/

namespace ThermalLabel

/-- Stock, elements and a counter. -/
structure Arena where
  stock : Stock
  elements : List Element
  nextId : UInt32
  deriving DecidableEq, Repr

/-- The arena of a design. -/
def Design.arena (d : Design) : Arena := ⟨d.stock, d.elements, d.nextId⟩

/-- What changes an arena and answers or fails; a failure takes no change back. -/
abbrev InPlace (α : Type) := ExceptT InvalidValue (StateM Arena) α

namespace Arena

/-- The place of the first element with an id. -/
def find? (id : UInt32) : InPlace (Option Nat) := do return (← get).elements.findIdx? (·.id = id)

def reserveId : InPlace UInt32 := do
  let id := (← get).nextId
  modify fun a => { a with nextId := addWord a.nextId 1 }
  return id

def insert (e : Element) : InPlace UInt32 := do
  if (← find? e.id).isSome then throw (.duplicateId e.id)
  if (← get).nextId ≤ e.id then modify fun a => { a with nextId := addWord e.id 1 }
  modify fun a => { a with elements := a.elements ++ [e] }
  return e.id

def replace (e : Element) : InPlace (Option Element) := do
  match ← find? e.id with
  | none => throw (.unknownId e.id)
  | some i =>
    let old := (← get).elements[i]?
    modify fun a => { a with elements := a.elements.set i e }
    return old

def remove (id : UInt32) : InPlace (Option Element) := do
  match ← find? id with
  | none => return none
  | some i =>
    let old := (← get).elements[i]?
    modify fun a => { a with elements := a.elements.eraseIdx i }
    return old

def restock (stock : Stock) : InPlace Unit := modify fun a => { a with stock }

/-- One operation. -/
def step : Operation → InPlace Reply
  | .reserveId => return .id (← reserveId)
  | .insert e => return .id (← insert e)
  | .replace e => return .element (← replace e)
  | .remove id => return .element (← remove id)
  | .restock stock => do restock stock; return .done

/-- What an operation answers in place, and the arena it leaves. -/
def perform (a : Arena) (op : Operation) : Except InvalidValue Reply × Arena := (step op).run.run a

/-- The arena that operations leave. -/
def run (a : Arena) (ops : List Operation) : Arena := ops.foldl (fun a op => (a.perform op).2) a

end Arena

/-! ## Runs -/

namespace Arena

/-- A search changes nothing. -/
theorem run_find {α : Type} (a : Arena) (id : UInt32) (k : Option Nat → InPlace α) :
    (find? id >>= k).run.run a = (k (a.elements.findIdx? (·.id = id))).run.run a := rfl

theorem perform_reserveId (a : Arena) :
    a.perform .reserveId = (.ok (.id a.nextId), { a with nextId := addWord a.nextId 1 }) := rfl

theorem perform_restock (a : Arena) (stock : Stock) :
    a.perform (.restock stock) = (.ok .done, { a with stock }) := rfl

theorem perform_insert_of_some {a : Arena} {e : Element} {i : Nat} (h : a.elements.findIdx? (·.id = e.id) = some i) :
    a.perform (.insert e) = (.error (.duplicateId e.id), a) := by
  simp only [perform, step, insert, bind_assoc, run_find, h]
  rfl

theorem perform_insert_of_none {a : Arena} {e : Element} (h : a.elements.findIdx? (·.id = e.id) = none) :
    a.perform (.insert e) = (.ok (.id e.id), { a with
      elements := a.elements ++ [e]
      nextId := if a.nextId ≤ e.id then addWord e.id 1 else a.nextId }) := by
  by_cases hle : a.nextId ≤ e.id
  · simp only [perform, step, insert, bind_assoc, run_find, h, Option.isSome_none, Bool.false_eq_true, if_false,
      pure_bind, run_get, hle, if_true]
    rfl
  · simp only [perform, step, insert, bind_assoc, run_find, h, Option.isSome_none, Bool.false_eq_true, if_false,
      pure_bind, run_get, hle]
    rfl

theorem perform_replace_of_none {a : Arena} {e : Element} (h : a.elements.findIdx? (·.id = e.id) = none) :
    a.perform (.replace e) = (.error (.unknownId e.id), a) := by
  simp only [perform, step, replace, bind_assoc, run_find, h]
  rfl

theorem perform_replace_of_some {a : Arena} {e : Element} {i : Nat} (h : a.elements.findIdx? (·.id = e.id) = some i) :
    a.perform (.replace e) = (.ok (.element a.elements[i]?), { a with elements := a.elements.set i e }) := by
  simp only [perform, step, replace, bind_assoc, run_find, h]
  rfl

theorem perform_remove_of_none {a : Arena} {id : UInt32} (h : a.elements.findIdx? (·.id = id) = none) :
    a.perform (.remove id) = (.ok (.element none), a) := by
  simp only [perform, step, remove, bind_assoc, run_find, h]
  rfl

theorem perform_remove_of_some {a : Arena} {id : UInt32} {i : Nat} (h : a.elements.findIdx? (·.id = id) = some i) :
    a.perform (.remove id) = (.ok (.element a.elements[i]?), { a with elements := a.elements.eraseIdx i }) := by
  simp only [perform, step, remove, bind_assoc, run_find, h]
  rfl
end Arena

/-! ## Places -/

theorem findIdx?_of_not_mem {es : List Element} {id : UInt32} (h : id ∉ es.map Element.id) :
    es.findIdx? (·.id = id) = none :=
  List.findIdx?_eq_none_iff.2 fun x hx => decide_eq_false (ne_of_not_mem_ids h x hx)

namespace Slot

variable {es before after : List Element} {id : UInt32} {e : Element} (h : Slot es id before e after)
include h

/-- The first element with the id is the one in its slot. -/
theorem findIdx?_eq : es.findIdx? (·.id = id) = some before.length := by
  have hbefore : before.findIdx? (·.id = id) = none :=
    List.findIdx?_eq_none_iff.2 fun x hx => decide_eq_false (h.ne_before x hx)
  have hslot : (e :: after).findIdx? (·.id = id) = some 0 := by
    rw [List.findIdx?_cons, if_pos (decide_eq_true h.id_eq)]
  rw [h.split, List.findIdx?_append, hbefore, Option.none_or, hslot, Option.map_some, Nat.zero_add]

theorem getElem?_eq : es[before.length]? = some e := by
  rw [h.split, List.getElem?_append_right (Nat.le_refl _), Nat.sub_self, List.getElem?_cons_zero]

theorem set_eq (e' : Element) : es.set before.length e' = before ++ e' :: after := by
  rw [h.split, List.set_append_right _ _ (Nat.le_refl _), Nat.sub_self, List.set_cons_zero]

theorem eraseIdx_eq : es.eraseIdx before.length = before ++ after := by
  rw [h.split, List.eraseIdx_append_of_length_le (Nat.le_refl _), Nat.sub_self, List.eraseIdx_cons_zero]

end Slot

/-! ## Agreement -/

namespace Arena

theorem arena_eq {d' : Design} {stock : Stock} {es : List Element} {n : UInt32} (hes : d'.elements = es)
    (hstock : d'.stock = stock) (hn : d'.nextId = n) : (⟨stock, es, n⟩ : Arena) = d'.arena := by
  subst hes hstock hn
  rfl

/-- **In place and on designs, operations do the same.** -/
theorem perform_arena (d : Design) (op : Operation) :
    d.arena.perform op = ((d.perform op).1, (d.perform op).2.arena) := by
  have h := d.performed op
  generalize (d.perform op).1 = reply at h ⊢
  generalize (d.perform op).2 = d' at h ⊢
  cases h with
  | reserved helements hstock hnext =>
    rw [perform_reserveId, ← arena_eq helements hstock hnext]
    rfl
  | @inserted e _ hid helements hstock hnext =>
    have hfind : d.arena.elements.findIdx? (·.id = e.id) = none := findIdx?_of_not_mem hid
    rw [perform_insert_of_none hfind, ← arena_eq helements hstock hnext]
    rfl
  | @duplicate e hid =>
    obtain ⟨before, old, after, hslot⟩ := exists_slot d.distinct hid
    exact perform_insert_of_some hslot.findIdx?_eq
  | replaced hslot helements hstock hnext =>
    rw [perform_replace_of_some hslot.findIdx?_eq, ← arena_eq helements hstock hnext, ← hslot.set_eq,
      ← hslot.getElem?_eq]
    rfl
  | unknown hid => exact perform_replace_of_none (findIdx?_of_not_mem hid)
  | removed hslot helements hstock hnext =>
    rw [perform_remove_of_some hslot.findIdx?_eq, ← arena_eq helements hstock hnext, ← hslot.eraseIdx_eq,
      ← hslot.getElem?_eq]
    rfl
  | missing hid => exact perform_remove_of_none (findIdx?_of_not_mem hid)
  | restocked helements hstock hnext =>
    rw [perform_restock, ← arena_eq helements hstock hnext]
    rfl

theorem run_arena (d : Design) (ops : List Operation) : d.arena.run ops = (d.run ops).arena :=
  List.foldl_hom Design.arena fun d op => congrArg Prod.snd (perform_arena d op)

/-- **What fails leaves the arena as it was.** -/
theorem perform_arena_of_error {d : Design} {op : Operation} {x : InvalidValue} (h : (d.perform op).1 = .error x) :
    d.arena.perform op = (.error x, d.arena) := by
  rw [perform_arena, h, (d.performed op).unchanged h]

end Arena

end ThermalLabel

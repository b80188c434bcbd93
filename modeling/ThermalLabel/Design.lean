import ThermalLabel.Element
import ThermalLabel.Stock

/-!
# Designs

A design is stock and the elements drawn on it, in the order in which they were added, and no two with the same id. It
hands out ids from a counter that never goes down.

* `Design.ofElements` takes a list of elements unless an id is repeated in it.
* `insert`, `replace` and `remove` change one element; what fails changes nothing.
-/

namespace ThermalLabel

/-- The first id, in list order, that occurs before in the list or in `seen`. -/
def firstRepeated (seen : List UInt32) : List Element → Option UInt32
  | [] => none
  | e :: es => if e.id ∈ seen then some e.id else firstRepeated (e.id :: seen) es

theorem firstRepeated_eq_none_iff {seen : List UInt32} {es : List Element} :
    firstRepeated seen es = none ↔ (es.map Element.id).Nodup ∧ ∀ e ∈ es, e.id ∉ seen := by
  induction es generalizing seen with
  | nil => simp [firstRepeated]
  | cons e es ih =>
    simp only [firstRepeated, List.map_cons, List.nodup_cons, List.mem_map, List.forall_mem_cons]
    split
    · next h => simp [h]
    · next h =>
      rw [ih]
      simp only [List.mem_cons, not_or]
      grind

/-- Stock, elements with distinct ids, and the next id to hand out. -/
structure Design where
  stock : Stock
  elements : List Element
  nextId : UInt32
  distinct : (elements.map Element.id).Nodup
  deriving DecidableEq, Repr

namespace Design

/-- The design without elements. -/
def empty (stock : Stock) : Design := ⟨stock, [], 1, by simp⟩

/-- The least id above those of the elements, at least 1 and at most the largest word. -/
def idAbove (es : List Element) : UInt32 := es.foldl (fun n e => max n (addWord e.id 1)) 1

/-- The design of a list of elements. -/
def ofElements (stock : Stock) (es : List Element) : Except InvalidValue Design :=
  match h : firstRepeated [] es with
  | some id => .error (.duplicateId id)
  | none => .ok ⟨stock, es, idAbove es, (firstRepeated_eq_none_iff.1 h).1⟩

/-- The element with an id. -/
def get? (d : Design) (id : UInt32) : Option Element := d.elements.find? fun e => e.id = id

/-- An id for an element to come, and the design that will not hand it out again. -/
def reserveId (d : Design) : UInt32 × Design := (d.nextId, { d with nextId := addWord d.nextId 1 })

/-- The design with an element more. -/
def insert (d : Design) (e : Element) : Except InvalidValue Design :=
  if h : e.id ∈ d.elements.map Element.id then .error (.duplicateId e.id)
  else .ok {
    stock := d.stock
    elements := d.elements ++ [e]
    nextId := if d.nextId ≤ e.id then addWord e.id 1 else d.nextId
    distinct := by
      rw [List.map_append, List.nodup_append]
      exact ⟨d.distinct, by simp, by grind⟩ }

/-- The element in place of the one with its id. -/
def swapIn (e : Element) (es : List Element) : List Element := es.map fun x => if x.id = e.id then e else x

theorem map_id_swapIn (e : Element) (es : List Element) : (swapIn e es).map Element.id = es.map Element.id := by
  simp only [swapIn, List.map_map]
  exact List.map_congr_left fun x _ => by simp only [Function.comp_apply]; split <;> simp_all

/-- The element that had the id of `e`, and the design with `e` in its place. -/
def replace (d : Design) (e : Element) : Except InvalidValue (Element × Design) :=
  match d.get? e.id with
  | none => .error (.unknownId e.id)
  | some old => .ok (old, { d with
      elements := swapIn e d.elements
      distinct := by rw [map_id_swapIn]; exact d.distinct })

/-- The element with an id, if there is one, and the design without it. -/
def remove (d : Design) (id : UInt32) : Option Element × Design :=
  (d.get? id, { d with
    elements := d.elements.filter fun e => e.id ≠ id
    distinct := d.distinct.sublist (List.filter_sublist.map _) })

/-- The design on other stock. -/
def withStock (d : Design) (stock : Stock) : Design := { d with stock }

/-- The ids of the elements in the order in which they were added. -/
def ids (d : Design) : List UInt32 := d.elements.map Element.id

end Design

end ThermalLabel

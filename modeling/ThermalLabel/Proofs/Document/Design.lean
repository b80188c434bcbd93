import ThermalLabel.Document.Design
import ThermalLabel.Proofs.Design.Fresh
import ThermalLabel.Proofs.Document.Element

/-!
# Designs read back from their documents

A design is read back with its stock and its elements in order, and its counter starts again above their ids
(`Design.readText_document`). Of the lengths of its stock this takes that they are read as the doubles that were written
(`Stock.Rereadable`).

The counter that was not written is the least above all ids used so far, because only they move it
(`Design.nextId_run_le`). So **the counter that is read is never above it, and the design is read back as it was exactly
if no id that was used lies above those of the elements** (`Design.reload_run`).
-/

namespace ThermalLabel

/-! ## The counter -/

/-- The search for the counter's start stays at or below what is not below any id. -/
theorem foldl_addWord_one_le {es : List Element} {n m : UInt32} (hn : n ≤ m) (h : ∀ e ∈ es, addWord e.id 1 ≤ m) :
    es.foldl (fun n e => max n (addWord e.id 1)) n ≤ m := by
  induction es generalizing n with
  | nil => exact hn
  | cons e es ih =>
    obtain ⟨he, hes⟩ := List.forall_mem_cons.1 h
    exact ih (max_word_le hn he) hes

namespace Design

theorem idAbove_le {es : List Element} {n : UInt32} (hn : 1 ≤ n) (h : ∀ e ∈ es, addWord e.id 1 ≤ n) : idAbove es ≤ n :=
  foldl_addWord_one_le hn h

theorem one_le_idAbove (es : List Element) : 1 ≤ idAbove es := (le_foldl_addWord_one es 1).1

/-- A design as it begins: empty, or with the elements of a list. -/
inductive Begun : Design → Prop where
  | empty (stock : Stock) : Begun (empty stock)
  | ofElements {stock : Stock} {es : List Element} {d : Design} (h : ofElements stock es = .ok d) : Begun d

/-- At the beginning the counter is just above the ids. -/
theorem Begun.nextId_eq {d : Design} (h : d.Begun) : d.nextId = idAbove d.elements := by
  cases h with
  | empty stock => rfl
  | @ofElements stock es _ h =>
    by_cases hes : (es.map Element.id).Nodup
    · rw [ofElements_of_nodup stock hes] at h
      cases h
      rfl
    · obtain ⟨before, e, after, -, -, -, hfail⟩ := ofElements_of_not_nodup stock hes
      rw [hfail] at h
      cases h

theorem Begun.counted {d : Design} (h : d.Begun) : d.Counted := by
  cases h with
  | empty stock => nofun
  | ofElements h => exact counted_of_ofElements h

theorem ids_subset_used (d : Design) (ops : List Operation) : d.ids ⊆ d.used ops := by
  cases ops with
  | nil => exact List.Subset.refl _
  | cons op ops =>
    rw [used, List.append_assoc]
    exact List.subset_append_left _ _

/-- An operation moves the counter only above an id that it hands out or adds. -/
theorem Performed.nextId_le_of {d d' : Design} {op : Operation} {reply : Except InvalidValue Reply}
    (h : Performed d op reply d') {n : UInt32} (hd : d.nextId ≤ n) (hout : ∀ id ∈ op.handedOut reply, addWord id 1 ≤ n)
    (hids : ∀ id ∈ d'.ids, addWord id 1 ≤ n) : d'.nextId ≤ n := by
  cases h with
  | reserved helements hstock hnext =>
    rw [hnext]
    exact hout _ List.mem_cons_self
  | @inserted e _ hid helements hstock hnext =>
    have he : e.id ∈ d'.ids := by
      rw [ids, helements, List.map_append]
      exact List.mem_append_right _ List.mem_cons_self
    rw [hnext]
    split
    · exact hids _ he
    · exact hd
  | replaced hslot helements hstock hnext | removed hslot helements hstock hnext | restocked helements hstock hnext =>
    rw [hnext]
    exact hd
  | duplicate | unknown | missing => exact hd

/-- **Only ids that are used move the counter.** -/
theorem nextId_run_le {d : Design} {n : UInt32} (hd : d.nextId ≤ n) {ops : List Operation}
    (h : ∀ id ∈ d.used ops, addWord id 1 ≤ n) : (d.run ops).nextId ≤ n := by
  induction ops generalizing d with
  | nil => exact hd
  | cons op ops ih =>
    rw [used] at h
    obtain ⟨⟨-, hout⟩, hrest⟩ := (List.forall_mem_append.1 h).imp_left List.forall_mem_append.1
    have hids := fun id hid => hrest id (ids_subset_used (d.perform op).2 ops hid)
    exact ih ((d.performed op).nextId_le_of hd hout hids) hrest

namespace Begun

variable {d : Design} (h : d.Begun) (ops : List Operation)
include h

/-- The counter is above the ids of the elements that are there. -/
theorem idAbove_le_run : idAbove (d.run ops).elements ≤ (d.run ops).nextId := by
  have hone : 1 ≤ d.nextId := h.nextId_eq ▸ one_le_idAbove d.elements
  exact idAbove_le (UInt32.le_trans hone (nextId_le_run d ops))
    fun e he => h.counted.run ops e.id (List.mem_map_of_mem he)

/-- **The counter is just above the ids that are there** exactly if no id that was used lies above those. -/
theorem nextId_run_eq_iff : idAbove (d.run ops).elements = (d.run ops).nextId ↔
    ∀ id ∈ d.used ops, addWord id 1 ≤ idAbove (d.run ops).elements := by
  constructor
  · intro heq id hid
    rw [heq]
    exact addWord_one_le_of_mem_used h.counted hid
  · intro hused
    -- What the counter starts at is above ids that were there, and these count as used.
    have hstart : d.nextId ≤ idAbove (d.run ops).elements := by
      rw [h.nextId_eq]
      exact idAbove_le (one_le_idAbove _) fun e he => hused e.id (ids_subset_used d ops (List.mem_map_of_mem he))
    exact UInt32.le_antisymm (h.idAbove_le_run ops) (nextId_run_le hstart hused)

end Begun

end Design

/-! ## Stock -/

/-- Each length is read as the double that was written. -/
structure Stock.Rereadable (s : Stock) : Prop where
  width : Document.double (.ofBinary64 s.width) = .ok s.width
  height : Document.double (.ofBinary64 s.height) = .ok s.height
  gap : Document.double (.ofBinary64 s.gap) = .ok s.gap

theorem Stock.make_self (s : Stock) : make s.width s.height s.dpi s.gap = .ok s := by
  rw [make, dif_pos s.width_ok, dif_pos s.height_ok, dif_pos s.dpi_ok.1, dif_pos s.dpi_ok.2, dif_pos s.gap_ok]

theorem Stock.proper_document (s : Stock) : s.document.Proper :=
  Json.proper_ofMembers (by simp [Json.proper_ofWord, Json.proper_ofBinary64])

namespace Document

theorem stock_document {s : Stock} (h : s.Rereadable) : stock s.document = .ok s := by
  have hread : stockRecord.read .direct s.document = .ok ⟨s.width, s.height, s.dpi, s.gap⟩ :=
    Record.read_ofMembers _ (by decide) <|
      .field h.width <|
      .field h.height <|
      .field (word_ofWord s.dpi) <|
      .field h.gap <|
      .nil _
  rw [stock, bind_ok hread]
  dsimp only
  rw [s.make_self]

end Document

/-! ## Designs -/

namespace Design

theorem proper_document (d : Design) : d.document.Proper := by
  have helements : (Json.array (d.elements.map Element.document)).Proper := by
    refine .array fun v hv => ?_
    obtain ⟨e, -, rfl⟩ := List.mem_map.1 hv
    exact e.proper_document
  exact Json.proper_ofMembers (by simp [d.stock.proper_document, helements])

/-- **A design is read back but for its counter**, which starts again above the ids of its elements. -/
theorem readText_document {d : Design} (h : d.stock.Rereadable) :
    Document.readText Document.design (String.ofList d.document.pretty) =
      .ok { d with nextId := idAbove d.elements } := by
  have hread : Document.designRecord.read .direct d.document = .ok ⟨some d.stock, d.elements⟩ :=
    Document.Record.read_ofMembers _ (by decide) <|
      .field (Document.stock_document h) <|
      .field (Document.list_map fun e _ => Document.element_document 2 e) <|
      .nil _
  rw [Document.readText_pretty _ d.proper_document, Document.design, Document.bind_ok hread]
  exact Document.valid_ok (ofElements_of_nodup d.stock d.distinct)

/-- **What was saved is loaded, and the counter starts again.** The design is the same exactly if no id that was used
lies above those of its elements. -/
theorem reload_run {d : Design} (hbegun : d.Begun) (ops : List Operation) (hstock : (d.run ops).stock.Rereadable) :
    ∃ d', Document.readText Document.design (String.ofList (d.run ops).document.pretty) = .ok d' ∧
      d'.stock = (d.run ops).stock ∧ d'.elements = (d.run ops).elements ∧
      d'.nextId = idAbove (d.run ops).elements ∧ d'.nextId ≤ (d.run ops).nextId ∧
      (d' = d.run ops ↔ ∀ id ∈ d.used ops, addWord id 1 ≤ idAbove (d.run ops).elements) := by
  refine ⟨_, readText_document hstock, rfl, rfl, rfl, hbegun.idAbove_le_run ops, ?_⟩
  rw [← hbegun.nextId_run_eq_iff ops]
  constructor
  · exact fun heq => congrArg nextId heq
  · intro hnext
    rw [hnext]

/-- An id that was handed out and an element added under it: the counter is above that element, and is read so. -/
theorem reload_after_insert :
    let stock : Stock := ⟨.ofNat 50, .ofNat 25, 203, .ofNat 2, by decide, by decide, by decide, by decide⟩
    let e : Element := { id := 7, position := ⟨10, 20⟩, kind := .image }
    let d : Design := ⟨stock, [e], 8, by decide⟩
    let ops : List Operation := [.reserveId, .insert { e with id := 8 }]
    d.Begun ∧ (d.run ops).stock.Rereadable ∧
      Document.readText Document.design (String.ofList (d.run ops).document.pretty) = .ok (d.run ops) := by
  intro stock e d ops
  have hbegun : d.Begun := .ofElements (ofElements_of_nodup stock d.distinct)
  have hstock : stock.Rereadable := ⟨by decide +kernel, by decide +kernel, by decide +kernel⟩
  obtain ⟨d', hread, -, -, -, -, hiff⟩ := reload_run hbegun ops hstock
  have hused : (d.used ops).all (fun id => addWord id 1 ≤ idAbove (d.run ops).elements) = true := by decide
  rw [hiff.2 fun id hid => of_decide_eq_true (List.all_eq_true.1 hused id hid)] at hread
  exact ⟨hbegun, hstock, hread⟩

/-- An id that was handed out and that no element has is forgotten: it is handed out again after loading. -/
theorem not_reload_after_reserveId :
    let stock : Stock := ⟨.ofNat 50, .ofNat 25, 203, .ofNat 2, by decide, by decide, by decide, by decide⟩
    let d : Design := (empty stock).run [.reserveId]
    (empty stock).Begun ∧ d.stock.Rereadable ∧ d.reserveId.1 = 2 ∧
      ∃ d', Document.readText Document.design (String.ofList d.document.pretty) = .ok d' ∧ d' ≠ d ∧
        d'.reserveId.1 = 1 := by
  intro stock d
  have hstock : stock.Rereadable := ⟨by decide +kernel, by decide +kernel, by decide +kernel⟩
  exact ⟨.empty stock, hstock, rfl, _, readText_document hstock, by decide, rfl⟩

end Design

end ThermalLabel

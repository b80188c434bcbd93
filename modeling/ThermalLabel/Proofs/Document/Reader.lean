import ThermalLabel.Document.Reader
import ThermalLabel.Proofs.Element
import ThermalLabel.Proofs.Json.RoundTrip

/-!
# Values read back from their documents

Words, stacking orders, texts and truth values are read as what they were written for. A record is read from an object
that lists its fields in order, if each value in turn changes the draft as it should: `Fills` says so, field by field,
and **such an object is read as the last draft** (`Record.read_ofMembers`). Which text a document had does not matter
(`readText_compact`, `readText_pretty`).
-/

namespace ThermalLabel

namespace Document

/-! ## Values read in steps -/

theorem map_ok {α β : Type} {r : Checked α} {a : α} (h : r = .ok a) (f : α → β) : r.map f = .ok (f a) := by
  rw [h]
  rfl

theorem bind_ok {α β : Type} {r : Checked α} {a : α} (h : r = .ok a) (f : α → Checked β) : (r >>= f) = f a := by
  rw [h]
  rfl

theorem valid_ok {α : Type} {r : Except InvalidValue α} {a : α} (h : r = .ok a) : valid r = .ok a := by
  rw [h]
  rfl

/-! ## Scalars -/

theorem integer_number {n : Literal} {i low high : Int} (h : n.numeric? = some (.integer i)) (hlow : low ≤ i)
    (hhigh : i ≤ high) (expected : String) : integer low high expected (.number n) = .ok i := by
  rw [integer, h]
  exact if_pos ⟨hlow, hhigh⟩

theorem integer_ofWord {w : UInt32} {low : Int} (h : low ≤ w.toNat) (expected : String) :
    integer low 4294967295 expected (.ofWord w) = .ok (w.toNat : Int) := by
  have hw : w.toNat < 4294967296 := w.toNat_lt
  exact integer_number (Literal.numeric?_ofNat (Nat.lt_of_lt_of_le hw (by decide))) h (by omega) expected

theorem word_ofWord (w : UInt32) : word (.ofWord w) = .ok w := by
  rw [word, map_ok (integer_ofWord (Int.natCast_nonneg _) _), Int.toNat_natCast, UInt32.ofNat_toNat]

theorem positive_ofWord (d : PositiveDots) : positive (.ofWord d.dots) = .ok d := by
  have hne : d.dots.toNat ≠ 0 := fun h => d.ne_zero (UInt32.toNat_inj.1 h)
  rw [positive, map_ok (integer_ofWord (by omega) _), Int.toNat_natCast, UInt32.ofNat_toNat,
    PositiveDots.atLeastOne_of_ne_zero d.ne_zero]

theorem stacking_ofInt (z : Int32) : stacking (.ofInt z.toInt) = .ok z := by
  have hlow := z.le_toInt
  have hhigh := z.toInt_lt
  have h63 : (Nat.pow 2 63 : Int) = 9223372036854775808 := rfl
  have h64 : (Nat.pow 2 64 : Int) = 18446744073709551616 := rfl
  have hnumber := Literal.numeric?_ofInt (n := z.toInt) (by omega) (by omega)
  rw [stacking, Json.ofInt, map_ok (integer_number hnumber (by omega) (by omega) _), Int32.ofInt_toInt]

/-- A list is read back if each of its items is. -/
theorem list_map {α : Type} {item : Json → Checked α} {write : α → Json} {as : List α}
    (h : ∀ a ∈ as, item (write a) = .ok a) : list item (.array (as.map write)) = .ok as := by
  rw [list]
  induction as with
  | nil => rfl
  | cons a as ih =>
    rw [List.map_cons, List.mapM_cons, h a List.mem_cons_self, ih fun b hb => h b (List.mem_cons_of_mem a hb)]
    rfl

/-! ## Records -/

variable {δ : Type}

/-- Members with the names of the fields, in their order, whose values change one draft into another. -/
inductive Fills : List (Field δ) → List (String × Json) → δ → δ → Prop where
  | nil (d : δ) : Fills [] [] d d
  | cons {f : Field δ} {fs : List (Field δ)} {v : Json} {ms : List (String × Json)} {d d₁ d₂ : δ}
      (h : f.read v d = .ok d₁) (hs : Fills fs ms d₁ d₂) : Fills (f :: fs) ((f.name, v) :: ms) d d₂

/-- A field whose value is read by itself and then put into the draft. -/
theorem Fills.field {α : Type} {name : String} {presence : Presence} {value : Json → Checked α} {set : α → δ → δ}
    {fs : List (Field δ)} {v : Json} {a : α} {ms : List (String × Json)} {d d' : δ} (h : value v = .ok a)
    (hs : Fills fs ms (set a d) d') :
    Fills (⟨name, presence, fun v d => (value v).map fun a => set a d⟩ :: fs) ((name, v) :: ms) d d' :=
  .cons (map_ok h _) hs

namespace Record

/-- The fields up to some place have been read, and those after it are yet to come. -/
theorem readMembers_of_fills (r : Record δ) (hdistinct : (r.fields.map Field.name).Nodup) (done : List (Field δ))
    {todo : List (Field δ)} (hfields : r.fields = done ++ todo) {ms : List (String × Json)} {d d' : δ}
    (h : Fills todo ms d d') :
    r.readMembers (done.map Field.name).reverse d (ms.map fun (k, v) => (some k, v)) = .ok d' := by
  induction h generalizing done with
  | nil d =>
    -- Every field has been seen, so none is missing.
    have hread : r.fields.find? (fun f => f.presence = .required ∧ f.name ∉ (done.map Field.name).reverse) = none := by
      rw [List.find?_eq_none, hfields, List.append_nil]
      intro f hf
      simp only [decide_eq_true_eq, not_and, not_not, List.mem_reverse]
      exact fun _ => List.mem_map_of_mem hf
    rw [List.map_nil, readMembers, hread]
  | @cons f fs v ms d d₁ d₂ hf _ ih =>
    -- Names are distinct: the name of the member was not seen before, and leads to this field and no other.
    have hnew : f.name ∉ done.map Field.name := by
      rw [hfields, List.map_append, List.map_cons] at hdistinct
      exact fun hmem => (List.nodup_append.1 hdistinct).2.2 _ hmem _ List.mem_cons_self rfl
    have hfind : r.fields.find? (fun g => g.name = f.name) = some f := by
      rw [hfields, List.find?_append, List.find?_eq_none.2, List.find?_cons_of_pos (by simp)]
      · rfl
      · intro g hg
        rw [decide_eq_true_eq]
        exact fun heq => hnew (heq ▸ List.mem_map_of_mem hg)
    have hrest := ih (done ++ [f]) (by rw [hfields, List.append_assoc, List.singleton_append])
    rw [List.map_append, List.reverse_append] at hrest
    rw [List.map_cons, readMembers, hfind]
    dsimp only
    rw [if_neg (fun hmem => hnew (List.mem_reverse.1 hmem)), hf]
    exact hrest

/-- **A record is read from its members in order.** -/
theorem read_ofMembers {r : Record δ} (access : Access) (hdistinct : (r.fields.map Field.name).Nodup)
    {ms : List (String × Json)} {d : δ} (h : Fills r.fields ms r.start d) : r.read access (.ofMembers ms) = .ok d :=
  r.readMembers_of_fills hdistinct [] rfl h

end Record

/-! ## Texts -/

theorem readText_compact {α : Type} (value : Json → Checked α) {v : Json} (h : v.Proper) :
    readText value (String.ofList v.compact) = value v := by
  rw [readText, String.toList_ofList, Json.read_compact h]
  dsimp only
  cases value v <;> rfl

theorem readText_pretty {α : Type} (value : Json → Checked α) {v : Json} (h : v.Proper) :
    readText value (String.ofList v.pretty) = value v := by
  rw [readText, String.toList_ofList, Json.read_pretty h]
  dsimp only
  cases value v <;> rfl

end Document

end ThermalLabel

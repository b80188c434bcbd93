import ThermalLabel.Proofs.HexEscape

/-!
# The grammar of field data with hex escapes

Field data is a sequence of units, each of them a byte other than the indicator, or the indicator and two hex digits
(`Piece`). What the units of a byte sequence stand for is read off them (`Spells`).

* **Units are read as their values** (`units_bytes`), and what is read without an error is a sequence of units
  (`exists_pieces_of_units`).
* The errors stand in the order of the text, each at an indicator, and only the last one can be about an escape that the
  end of the text cuts off (`faults_units`).
* **Decoding accepts exactly the grammar** (`decode_exact`).
-/

namespace ThermalLabel.HexEscape

variable {indicator : UInt8}

/-! ## Hex digits -/

/-- A hex digit, whose letter may be a capital one. -/
structure Digit where
  value : Fin 16
  capital : Bool
  deriving DecidableEq, Repr

namespace Digit

/-- The character of the digit. -/
def char (d : Digit) : Char := if d.capital then (Nat.digitChar d.value).toUpper else Nat.digitChar d.value

/-- The byte of the digit. -/
def byte (d : Digit) : UInt8 := UInt8.ofNat d.char.toNat

/-- Every digit, those of the letters in both cases. -/
def all : List Digit := [true, false].flatMap fun capital => (List.finRange 16).map fun value => ⟨value, capital⟩

end Digit

theorem digit?_byte (d : Digit) : digit? d.byte = some (UInt8.ofNat d.value) := by
  obtain ⟨value, capital⟩ := d
  revert value capital
  decide

/-- A byte that has a value as a digit is the byte of a digit. -/
theorem exists_digit {b v : UInt8} (h : digit? b = some v) : ∃ d : Digit, d.byte = b ∧ UInt8.ofNat d.value = v := by
  have hall : ∀ n < 256, ∀ w ∈ digit? (UInt8.ofNat n),
      ∃ d ∈ Digit.all, d.byte = UInt8.ofNat n ∧ UInt8.ofNat d.value = w := by
    decide +kernel
  obtain ⟨d, -, hd⟩ := hall b.toNat b.toNat_lt v (by rw [UInt8.ofNat_toNat]; exact h)
  rw [UInt8.ofNat_toNat] at hd
  exact ⟨d, hd⟩

/-! ## Units -/

/-- A unit of field data. -/
inductive Piece (indicator : UInt8) where
  | plain (b : UInt8) (ne : b ≠ indicator)
  | escape (high low : Digit)

namespace Piece

/-- The bytes of a unit. -/
def bytes : Piece indicator → List UInt8
  | .plain b _ => [b]
  | .escape high low => [indicator, high.byte, low.byte]

/-- The byte that a unit stands for. -/
def value : Piece indicator → UInt8
  | .plain b _ => b
  | .escape high low => UInt8.ofNat (high.value * 16 + low.value)

end Piece

/-- The bytes are those of a sequence of units that stand for the values. -/
def Spells (indicator : UInt8) (bytes values : List UInt8) : Prop :=
  ∃ ps : List (Piece indicator), ps.flatMap Piece.bytes = bytes ∧ ps.map Piece.value = values

theorem byte?_digits (high low : Digit) :
    byte? high.byte low.byte = some (UInt8.ofNat (high.value * 16 + low.value)) := by
  rw [byte?, digit?_byte, digit?_byte]
  simp only [UInt8.ofNat_add, UInt8.ofNat_mul]
  rfl

theorem exists_digits {h l v : UInt8} (hv : byte? h l = some v) :
    ∃ high low : Digit, high.byte = h ∧ low.byte = l ∧ UInt8.ofNat (high.value * 16 + low.value) = v := by
  unfold byte? at hv
  split at hv
  · rename_i x y hx hy
    obtain ⟨high, hhigh, rfl⟩ := exists_digit hx
    obtain ⟨low, hlow, rfl⟩ := exists_digit hy
    refine ⟨high, low, hhigh, hlow, ?_⟩
    rw [← Option.some.inj hv, UInt8.ofNat_add, UInt8.ofNat_mul]
    rfl
  · cases hv

/-- **Units are read as their values**, wherever they stand. -/
theorem units_bytes : ∀ (ps : List (Piece indicator)) (offset : Nat),
    units indicator offset (ps.flatMap Piece.bytes) = (ps.map Piece.value).map .ok
  | [], _ => rfl
  | .plain b ne :: ps, offset => by
    have ih := units_bytes ps (offset + 1)
    rw [List.flatMap_cons, List.map_cons, List.map_cons, ← ih]
    exact units_cons_of_ne ne offset _
  | .escape high low :: ps, offset => by
    have ih := units_bytes ps (offset + 3)
    rw [List.flatMap_cons, List.map_cons, List.map_cons, ← ih]
    show units indicator offset (indicator :: high.byte :: low.byte :: ps.flatMap Piece.bytes) = _
    rw [units, if_pos rfl, byte?_digits]
    rfl

/-- What is read without an error is a sequence of units. -/
theorem exists_pieces_of_units (offset : Nat) (bytes : List UInt8) :
    errors (units indicator offset bytes) = [] → ∃ ps : List (Piece indicator), ps.flatMap Piece.bytes = bytes := by
  fun_induction units indicator offset bytes with
  | case1 => exact fun _ => ⟨[], rfl⟩
  | case2 offset h l rest ih =>
    intro herrors
    cases hv : byte? h l with
    | none =>
      rw [hv] at herrors
      cases herrors
    | some v =>
      rw [hv] at herrors
      obtain ⟨high, low, rfl, rfl, -⟩ := exists_digits hv
      obtain ⟨ps, rfl⟩ := ih herrors
      exact ⟨.escape high low :: ps, rfl⟩
  | case3 offset bs hshort =>
    intro herrors
    cases herrors
  | case4 offset b bs hb ih =>
    intro herrors
    obtain ⟨ps, rfl⟩ := ih herrors
    exact ⟨.plain b hb :: ps, rfl⟩

/-! ## Errors -/

/-- The error is about the indicator at its offset, and says of the bytes after it what they are. -/
structure Malformed.Fits (indicator : UInt8) (bytes : List UInt8) (e : Malformed) : Prop where
  indicator_eq : e.indicator = indicator
  at_indicator : bytes[e.offset]? = some indicator
  invalid : ∀ first second, e.defect = .invalid first second →
    bytes[e.offset + 1]? = some first ∧ bytes[e.offset + 2]? = some second ∧
      ¬∃ high low : Digit, high.byte = first ∧ low.byte = second
  incomplete : e.defect = .incomplete → bytes.length ≤ e.offset + 2

/-- The errors are about a text from an offset on, in its order, and none but the last is about its end. -/
structure Faults (indicator : UInt8) (bytes : List UInt8) (lo : Nat) (es : List Malformed) : Prop where
  fits : ∀ e ∈ es, lo ≤ e.offset ∧ e.Fits indicator bytes
  order : es.Pairwise fun e f => e.offset < f.offset ∧ e.defect ≠ .incomplete

namespace Faults

variable {bytes : List UInt8} {lo lo' : Nat} {e : Malformed} {es : List Malformed}

theorem nil : Faults indicator bytes lo [] := by
  constructor
  · intro e he
    cases he
  · exact .nil

theorem mono (h : Faults indicator bytes lo es) (hle : lo' ≤ lo) : Faults indicator bytes lo' es := by
  constructor
  · intro e he
    obtain ⟨hlo, hfits⟩ := h.fits e he
    exact ⟨by omega, hfits⟩
  · exact h.order

/-- One error more, in front of the others. -/
theorem cons (h : Faults indicator bytes lo es) (he : e.Fits indicator bytes) (hlo : e.offset < lo)
    (hdefect : e.defect ≠ .incomplete) : Faults indicator bytes e.offset (e :: es) := by
  constructor
  · intro f hf
    rcases List.mem_cons.1 hf with rfl | hf
    · exact ⟨Nat.le_refl _, he⟩
    · exact (h.mono (Nat.le_of_lt hlo)).fits f hf
  · refine .cons ?_ h.order
    intro f hf
    have := (h.fits f hf).1
    exact ⟨by omega, hdefect⟩

end Faults

/-- **The errors of a text** stand in its order. -/
theorem faults_units (offset : Nat) (bytes : List UInt8) : ∀ before : List UInt8, before.length = offset →
    Faults indicator (before ++ bytes) offset (errors (units indicator offset bytes)) := by
  fun_induction units indicator offset bytes with
  | case1 => exact fun _ _ => .nil
  | case2 offset h l rest ih =>
    rintro before rfl
    have ih := ih (before ++ [indicator, h, l]) (by simp)
    rw [List.append_assoc] at ih
    cases hv : byte? h l with
    | some v => exact ih.mono (by omega)
    | none =>
      refine Faults.cons (e := ⟨indicator, before.length, .invalid h l⟩) ih ?_ (by simp) nofun
      constructor
      · rfl
      · simp
      · intro first second heq
        cases heq
        refine ⟨by simp, by simp, ?_⟩
        rintro ⟨high, low, rfl, rfl⟩
        rw [byte?_digits] at hv
        cases hv
      · nofun
  | case3 offset bs hshort =>
    rintro before rfl
    have hlength : bs.length < 2 := by
      match bs, hshort with
      | [], _ | [_], _ => simp
      | h :: l :: rest, hshort => exact absurd rfl (hshort h l rest)
    constructor
    · intro e he
      obtain rfl := List.mem_singleton.1 he
      refine ⟨Nat.le_refl _, ?_⟩
      constructor
      · rfl
      · simp
      · nofun
      · intro _
        simp only [List.length_append, List.length_cons]
        omega
    · exact List.pairwise_singleton _ _
  | case4 offset b bs hb ih =>
    rintro before rfl
    have ih := ih (before ++ [b]) (by simp)
    rw [List.append_assoc] at ih
    exact ih.mono (by omega)

/-- No error comes before an escape that the end of the text cuts off. -/
theorem Faults.dropLast {bytes : List UInt8} {lo : Nat} {es : List Malformed} (h : Faults indicator bytes lo es) :
    ∀ e ∈ es.dropLast, e.defect ≠ .incomplete := by
  intro e he
  have hne : es ≠ [] := by
    rintro rfl
    cases he
  have horder := h.order
  rw [← List.dropLast_concat_getLast hne, List.pairwise_append] at horder
  exact (horder.2.2 e he _ (List.mem_singleton_self _)).2

/-! ## Decoding -/

/-- What is said of a text that is no sequence of units. -/
structure Rejects (indicator : UInt8) (bytes : List UInt8) (es : List Malformed) : Prop where
  ne_nil : es ≠ []
  increasing : es.Pairwise fun e f => e.offset < f.offset
  /-- Each error is about an indicator of the text. -/
  fits : ∀ e ∈ es, e.Fits indicator bytes
  /-- Only the last can be about an escape that the end of the text cuts off. -/
  last : ∀ e ∈ es.dropLast, e.defect ≠ .incomplete

theorem rejects_of_errors_ne_nil {bytes : List UInt8} (h : errors (units indicator 0 bytes) ≠ []) :
    Rejects indicator bytes (errors (units indicator 0 bytes)) := by
  have hfaults : Faults indicator bytes 0 (errors (units indicator 0 bytes)) := faults_units 0 bytes [] rfl
  constructor
  · exact h
  · exact hfaults.order.imp And.left
  · exact fun e he => (hfaults.fits e he).2
  · exact hfaults.dropLast

/-- The values of units are decoded. -/
theorem decode_of_spells {content : List Char} {vs : List UInt8} (h : Spells indicator (Text.encode content) vs) :
    decode indicator content = .ok vs := by
  obtain ⟨ps, hbytes, rfl⟩ := h
  rw [decode, ← hbytes, units_bytes, errors_ok, values_ok]
  rfl

/-- **A text is decoded or refused:** it is a sequence of units, or has errors. -/
theorem decode_cases (indicator : UInt8) (content : List Char) :
    (∃ vs, Spells indicator (Text.encode content) vs) ∨
      ∃ es, decode indicator content = .error es ∧ Rejects indicator (Text.encode content) es := by
  by_cases herrors : errors (units indicator 0 (Text.encode content)) = []
  · obtain ⟨ps, hbytes⟩ := exists_pieces_of_units 0 _ herrors
    exact .inl ⟨_, ps, hbytes, rfl⟩
  · refine .inr ⟨_, ?_, rejects_of_errors_ne_nil herrors⟩
    exact if_neg (by simpa using herrors)

/--
**Decoding accepts exactly the grammar.** It gives some values exactly if the bytes of the text are those of units that
stand for these values. Any other text is refused with errors that stand in its order, each of them at an indicator, of
which only the last can be about an escape that the end of the text cuts off.
-/
theorem decode_exact (indicator : UInt8) (content : List Char) :
    (∀ vs, decode indicator content = .ok vs ↔ Spells indicator (Text.encode content) vs) ∧
      ((¬∃ vs, Spells indicator (Text.encode content) vs) →
        ∃ es, decode indicator content = .error es ∧ Rejects indicator (Text.encode content) es) := by
  constructor
  · intro vs
    constructor
    · intro hvs
      rcases decode_cases indicator content with ⟨ws, hws⟩ | ⟨es, hes, -⟩
      · rw [decode_of_spells hws] at hvs
        exact Except.ok.inj hvs ▸ hws
      · rw [hes] at hvs
        cases hvs
    · exact decode_of_spells
  · intro hnone
    exact (decode_cases indicator content).resolve_left hnone

/-- An indicator among the two bytes after another one is not read again, and one at the end is cut off. -/
theorem decode_exact_of_faults :
    let content := ['_', '5', '_', '4', 'x', '_']
    (¬∃ vs, Spells defaultIndicator (Text.encode content) vs) ∧
      ∃ es, decode defaultIndicator content = .error es ∧ Rejects defaultIndicator (Text.encode content) es ∧
        es = [⟨defaultIndicator, 0, .invalid 0x35 0x5F⟩, ⟨defaultIndicator, 5, .incomplete⟩] := by
  intro content
  have hdecode : decode defaultIndicator content =
      .error [⟨defaultIndicator, 0, .invalid 0x35 0x5F⟩, ⟨defaultIndicator, 5, .incomplete⟩] := by
    rfl
  have hnone : ¬∃ vs, Spells defaultIndicator (Text.encode content) vs := by
    rintro ⟨vs, hvs⟩
    have hok := (decode_exact defaultIndicator content).1 vs |>.2 hvs
    rw [hdecode] at hok
    cases hok
  obtain ⟨es, hes, hrejects⟩ := (decode_exact defaultIndicator content).2 hnone
  refine ⟨hnone, es, hes, hrejects, ?_⟩
  rw [hdecode] at hes
  exact (Except.error.inj hes).symm

end ThermalLabel.HexEscape

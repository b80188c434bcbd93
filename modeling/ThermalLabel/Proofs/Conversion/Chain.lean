import ThermalLabel.Conversion
import ThermalLabel.Proofs.Conversion.Regeneration
import ThermalLabel.Proofs.Conversion.Related
import ThermalLabel.Proofs.Recovery.Report

/-!
# Chains of conversions

The elements of any program are of kinds that every language can draw, except for QR codes in EPL2
(`recoverable_recovered`). So a conversion leaves each of them where it is, in the same order, and keeps what all
languages have in common: kinds up to box or line, rotations of text and barcodes, the styles of codes, and content on
one line (`Carried`). This composes, and holds along a chain of any length (`chain_carries`).
-/

namespace ThermalLabel

/-! ## What is carried -/

/-- Is the element a QR code? -/
def Element.isQrCode (e : Element) : Bool :=
  match e.kind with
  | .qrCode _ => true
  | _ => false

/-- Does a recovered element survive a way through the languages? Only QR codes do not, in EPL2. -/
def Element.survives (ls : List Language) (e : Element) : Bool := !(Language.epl ∈ ls && e.isQrCode)

/-- Content after a way through the languages. -/
def carriedContent (ls : List Language) (content : String) : String :=
  if ∀ l ∈ ls, l = .zpl then content else singleLine content

/-- What all languages keep of the kind and rotation of an element. -/
def Element.SameKind (e k : Element) : Prop :=
  match e.kind with
  | .text _ => (∃ style, k.kind = .text style) ∧ k.rotation = e.rotation
  | .barcode style => k.kind = .barcode style ∧ k.rotation = e.rotation
  | .qrCode style => k.kind = .qrCode style
  | .box _ | .line _ => ∃ stroke, k.kind = .box stroke ∨ k.kind = .line stroke
  | .price _ | .image => False

/-- The second element is what a way through the languages makes of the first. -/
structure Carried (ls : List Language) (e k : Element) : Prop where
  position : k.position = e.position
  content : k.content = carriedContent ls e.content
  sameKind : e.SameKind k

/-! ## Ways put together -/

theorem singleLine_singleLine (content : String) : singleLine (singleLine content) = singleLine content := by
  rw [singleLine, toList_singleLine, oneLine_oneLine]
  rfl

theorem carriedContent_append (ls ls' : List Language) (content : String) :
    carriedContent (ls ++ ls') content = carriedContent ls' (carriedContent ls content) := by
  unfold carriedContent
  by_cases h : ∀ l ∈ ls, l = .zpl
  · by_cases h' : ∀ l ∈ ls', l = .zpl
    · rw [if_pos h, if_pos h', if_pos (List.forall_mem_append.2 ⟨h, h'⟩)]
    · rw [if_pos h, if_neg h', if_neg fun happend => h' (List.forall_mem_append.1 happend).2]
  · rw [if_neg h, if_neg fun happend => h (List.forall_mem_append.1 happend).1]
    by_cases h' : ∀ l ∈ ls', l = .zpl
    · rw [if_pos h']
    · rw [if_neg h', singleLine_singleLine]

theorem Element.SameKind.trans {e k m : Element} (h : e.SameKind k) (h' : k.SameKind m) : e.SameKind m := by
  unfold SameKind at h ⊢
  cases he : e.kind with
  | text style =>
    simp only [he] at h ⊢
    obtain ⟨⟨style', hk⟩, hr⟩ := h
    simp only [SameKind, hk] at h'
    exact ⟨h'.1, h'.2.trans hr⟩
  | barcode style =>
    simp only [he] at h ⊢
    obtain ⟨hk, hr⟩ := h
    simp only [SameKind, hk] at h'
    exact ⟨h'.1, h'.2.trans hr⟩
  | qrCode style =>
    simp only [he] at h ⊢
    simp only [SameKind, h] at h'
    exact h'
  | box stroke | line stroke =>
    simp only [he] at h ⊢
    obtain ⟨stroke', hk | hk⟩ := h
    · simp only [SameKind, hk] at h'
      exact h'
    · simp only [SameKind, hk] at h'
      exact h'
  | price style | image =>
    simp only [he] at h

theorem Element.SameKind.isQrCode_eq {e k : Element} (h : e.SameKind k) : k.isQrCode = e.isQrCode := by
  unfold SameKind at h
  unfold isQrCode
  cases he : e.kind with
  | text style =>
    simp only [he] at h
    obtain ⟨⟨style', hk⟩, -⟩ := h
    rw [hk]
  | barcode style =>
    simp only [he] at h
    rw [h.1]
  | qrCode style =>
    simp only [he] at h
    rw [h]
  | box stroke | line stroke =>
    simp only [he] at h
    obtain ⟨stroke', hk | hk⟩ := h
    · rw [hk]
    · rw [hk]
  | price style | image =>
    simp only [he] at h

theorem Carried.trans {ls ls' : List Language} {e k m : Element} (h : Carried ls e k) (h' : Carried ls' k m) :
    Carried (ls ++ ls') e m where
  position := h'.position.trans h.position
  content := by rw [carriedContent_append, ← h.content, h'.content]
  sameKind := h.sameKind.trans h'.sameKind

theorem Element.survives_append (ls ls' : List Language) (e : Element) :
    e.survives (ls ++ ls') = (e.survives ls && e.survives ls') := by
  simp only [survives, List.mem_append]
  cases e.isQrCode with
  | false => simp
  | true => simp [Bool.decide_or]

theorem Carried.survives_eq {ls : List Language} {e k : Element} (h : Carried ls e k) (ls' : List Language) :
    k.survives ls' = e.survives ls' := by
  rw [Element.survives, Element.survives, h.sameKind.isQrCode_eq]

/-! ## One conversion -/

/-- A language keeps the recovered elements that survive. -/
theorem isSome_kept?_eq (l : Language) {e : Element} (he : e.Recoverable) : (l.kept? e).isSome = e.survives [l] := by
  obtain ⟨id, position, size, rotation, zOrder, content, kind⟩ := e
  cases kind with
  | price style | image => exact he.elim
  | text style | barcode style | qrCode style | box stroke | line stroke => cases l <;> rfl

/-- A graphic stays where it is, and has no content. -/
theorem keptGraphic_place (e : Element) (stroke : Stroke) :
    (keptGraphic e stroke).position = e.position ∧ (keptGraphic e stroke).content = "" := by
  unfold keptGraphic
  dsimp only
  split
  · exact ⟨rfl, rfl⟩
  · exact ⟨rfl, rfl⟩

/-- **What a language keeps of a recovered element** is carried. -/
theorem carried_kept {l : Language} {e k : Element} (he : e.Recoverable) (h : l.kept? e = some k) :
    Carried [l] e k := by
  obtain ⟨id, position, size, rotation, zOrder, content, kind⟩ := e
  cases kind with
  | text style =>
    cases l with
    | zpl | epl | tspl =>
      obtain rfl := Option.some.inj h
      exact ⟨rfl, rfl, ⟨_, rfl⟩, rfl⟩
  | barcode style =>
    cases l with
    | zpl | epl | tspl =>
      obtain rfl := Option.some.inj h
      exact ⟨rfl, rfl, rfl, rfl⟩
  | qrCode style =>
    cases l with
    | epl => cases h
    | zpl | tspl =>
      obtain rfl := Option.some.inj h
      exact ⟨rfl, rfl, rfl⟩
  | box stroke | line stroke =>
    obtain ⟨rfl, -⟩ : content = "" ∧ _ := he
    cases l with
    | zpl =>
      obtain rfl := Option.some.inj h
      exact ⟨rfl, rfl, stroke, Shape.kind_cases _ _⟩
    | epl | tspl =>
      obtain rfl := Option.some.inj h
      refine ⟨(keptGraphic_place _ stroke).1, (keptGraphic_place _ stroke).2, keptStroke size stroke, ?_⟩
      rw [keptGraphic_kind]
      exact Shape.kind_cases _ _
  | price style | image => exact he.elim

/-- **One conversion** skips nothing when its program is read, and carries all elements that survive. -/
theorem leg_carries (stock : Stock) (l₀ l : Language) (program : String) :
    let es := (recover l₀ program).elements
    (leg stock l es).recovered.skipped = 0 ∧
      List.Forall₂ (Carried [l]) (es.filter (·.survives [l])) (leg stock l es).recovered.elements := by
  intro es
  have hnumbered : renumbered es = es := renumbered_recovered l₀ program.toList
  have hread : (leg stock l es).recovered = .complete ⟨stock.widthDots, stock.heightDots⟩
      (Text.byteLength (emit l stock es).program.toList) (es.filterMap l.kept?) := by
    have hemit := recover_emit l stock es
    rw [← hnumbered, stacked_renumbered, hnumbered] at hemit
    exact hemit
  have hrecoverable := recoverable_recovered l₀ program
  rw [hread]
  refine ⟨rfl, forall₂_renumbered ?_ (forall₂_filter_filterMap ?_ ?_)⟩
  · intro e k index h
    exact ⟨h.position, h.content, h.sameKind⟩
  · intro e he
    exact isSome_kept?_eq l (hrecoverable e he)
  · intro e he k hk
    exact carried_kept (hrecoverable e he) hk

/-! ## Chains -/

/--
**A chain of conversions**, of any length and from any program, moves, reorders, duplicates and drops nothing that every
language can express: after each of its programs the elements are those of the start in the same order, without QR
codes once EPL2 was among the languages, and each is carried. Nothing is skipped when a written program is read.
-/
theorem chain_carries (stock : Stock) : ∀ (ls : List Language) (l₀ : Language) (program : String) (i : Fin ls.length),
    let es := (recover l₀ program).elements
    let way := ls.take (i + 1)
    ∃ leg, (chain stock es ls)[i.val]? = some leg ∧ leg.recovered.skipped = 0 ∧
      List.Forall₂ (Carried way) (es.filter (·.survives way)) leg.recovered.elements
  | [], _, _, i => i.elim0
  | l :: ls, l₀, program, ⟨0, _⟩ => by
    intro es way
    exact ⟨leg stock l es, rfl, leg_carries stock l₀ l program⟩
  | l :: ls, l₀, program, ⟨i + 1, hi⟩ => by
    intro es way
    obtain ⟨-, hfirst⟩ := leg_carries stock l₀ l program
    -- the program just written is a program like any other: the rest of the chain starts from it
    obtain ⟨last, hlast, hskipped, hrest⟩ :=
      chain_carries stock ls l (emit l stock es).program ⟨i, Nat.lt_of_succ_lt_succ hi⟩
    refine ⟨last, hlast, hskipped, ?_⟩
    have hway : es.filter (·.survives way) =
        (es.filter (·.survives [l])).filter (·.survives (ls.take (i + 1))) := by
      rw [List.filter_filter]
      refine List.filter_congr fun e _ => ?_
      rw [Bool.and_comm]
      exact Element.survives_append [l] (ls.take (i + 1)) e
    have hsurvivors := List.rel_filter (p := (·.survives (ls.take (i + 1)))) (q := (·.survives (ls.take (i + 1))))
      (fun e k h => iff_of_eq (congrArg (· = true) (h.survives_eq _).symm)) hfirst
    rw [hway]
    exact forall₂_trans (fun _ _ _ h h' => h.trans h') hsurvivors hrest

end ThermalLabel

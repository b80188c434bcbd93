import ThermalLabel.Diagnostic.Basic
import ThermalLabel.Text.Utf8

/-!
# Slices

A text is cut at offsets in bytes. A cut inside a character or beyond the end fails, and so does a slice whose end comes
before its start (`Text.slice?_eq_some_iff`). Hence there is a slice for a span exactly when its ends are in order and
between characters (`Text.isSome_slice?_iff`). `Text.Ascending` says of spans that each of them has a slice and none
begins before the one in front of it ends.
-/

namespace ThermalLabel.Text

/-! ## Cuts -/

/-- The first `n` bytes of a text and the rest, unless the cut is inside a character or beyond the end. -/
def splitBytes? : List Char → Nat → Option (List Char × List Char)
  | cs, 0 => some ([], cs)
  | [], _ + 1 => none
  | c :: cs, n + 1 =>
    if c.utf8Size ≤ n + 1 then (splitBytes? cs (n + 1 - c.utf8Size)).map fun (a, b) => (c :: a, b) else none

/-- A text without bytes is empty. -/
theorem eq_nil_of_byteLength : ∀ {cs : List Char}, byteLength cs = 0 → cs = []
  | [], _ => rfl
  | c :: cs, h => by
    have hc := c.utf8Size_pos
    rw [byteLength_cons] at h
    omega

/-- **A cut gives two parts of the text**, the first of them of the given number of bytes. -/
theorem splitBytes?_eq_some_iff {cs a b : List Char} {n : Nat} :
    splitBytes? cs n = some (a, b) ↔ cs = a ++ b ∧ byteLength a = n := by
  fun_induction splitBytes? cs n generalizing a b with
  | case1 cs =>
    constructor
    · intro h
      cases h
      exact ⟨rfl, rfl⟩
    · rintro ⟨rfl, h⟩
      rw [eq_nil_of_byteLength h]
      rfl
  | case2 n =>
    constructor
    · nofun
    · rintro ⟨h, hn⟩
      rw [(List.append_eq_nil_iff.1 h.symm).1] at hn
      cases hn
  | case3 c cs n hc ih =>
    constructor
    · intro h
      obtain ⟨⟨a', b'⟩, hsplit, hab⟩ := Option.map_eq_some_iff.1 h
      cases hab
      obtain ⟨rfl, hn⟩ := ih.1 hsplit
      refine ⟨rfl, ?_⟩
      rw [byteLength_cons]
      omega
    · rintro ⟨h, hn⟩
      cases a with
      | nil => cases hn
      | cons c' a =>
        obtain ⟨rfl, rfl⟩ := List.cons.inj h
        rw [byteLength_cons] at hn
        rw [ih.2 ⟨rfl, by omega⟩]
        rfl
  | case4 c cs n hc =>
    constructor
    · nofun
    · rintro ⟨h, hn⟩
      cases a with
      | nil => cases hn
      | cons c' a =>
        obtain ⟨rfl, rfl⟩ := List.cons.inj h
        rw [byteLength_cons] at hn
        omega

/-- Is an offset between two characters of a text, or at one of its ends? -/
def CharBoundary (cs : List Char) (n : Nat) : Prop := ∃ a b, cs = a ++ b ∧ byteLength a = n

theorem CharBoundary.le_byteLength {cs : List Char} {n : Nat} (h : CharBoundary cs n) : n ≤ byteLength cs := by
  obtain ⟨a, b, rfl, rfl⟩ := h
  rw [byteLength_append]
  omega

/-! ## Slices -/

/-- The text of a span, unless its ends are out of order, out of range or inside a character. -/
def slice? (cs : List Char) (s : Span) : Option (List Char) :=
  if s.start ≤ s.stop then
    (splitBytes? cs s.start).bind fun (_, rest) => (splitBytes? rest (s.stop - s.start)).map Prod.fst
  else none

/-- **A slice is a part of the text** at the place of its span. -/
theorem slice?_eq_some_iff {cs text : List Char} {s : Span} : slice? cs s = some text ↔
    ∃ before after, cs = before ++ text ++ after ∧ s = ⟨byteLength before, byteLength before + byteLength text⟩ := by
  obtain ⟨start, stop⟩ := s
  constructor
  · intro h
    unfold slice? at h
    split at h
    · rename_i hle
      obtain ⟨⟨before, rest⟩, hbefore, h⟩ := Option.bind_eq_some_iff.1 h
      obtain ⟨⟨text', after⟩, htext, rfl⟩ := Option.map_eq_some_iff.1 h
      obtain ⟨rfl, hstart⟩ := splitBytes?_eq_some_iff.1 hbefore
      obtain ⟨rfl, hstop⟩ := splitBytes?_eq_some_iff.1 htext
      refine ⟨before, after, (List.append_assoc _ _ _).symm, ?_⟩
      simp only [Span.mk.injEq]
      simp only at hstart hstop hle
      omega
    · cases h
  · rintro ⟨before, after, rfl, hs⟩
    obtain ⟨rfl, rfl⟩ := Span.mk.inj hs
    have hbefore : splitBytes? (before ++ text ++ after) (byteLength before) = some (before, text ++ after) :=
      splitBytes?_eq_some_iff.2 ⟨List.append_assoc _ _ _, rfl⟩
    have htext : splitBytes? (text ++ after) (byteLength text) = some (text, after) :=
      splitBytes?_eq_some_iff.2 ⟨rfl, rfl⟩
    unfold slice?
    rw [if_pos (Nat.le_add_right _ _), Nat.add_sub_cancel_left, hbefore, Option.bind_some]
    exact congrArg (Option.map Prod.fst) htext

/-- The part of a text between two others. -/
theorem slice?_append (before text after : List Char) :
    slice? (before ++ text ++ after) ⟨byteLength before, byteLength before + byteLength text⟩ = some text :=
  slice?_eq_some_iff.2 ⟨before, after, rfl, rfl⟩

/-- **There is a slice** exactly if the ends of the span are in order and between characters. -/
theorem isSome_slice?_iff {cs : List Char} {s : Span} :
    (slice? cs s).isSome ↔ s.start ≤ s.stop ∧ CharBoundary cs s.start ∧ CharBoundary cs s.stop := by
  constructor
  · intro h
    obtain ⟨text, htext⟩ := Option.isSome_iff_exists.1 h
    obtain ⟨before, after, rfl, rfl⟩ := slice?_eq_some_iff.1 htext
    refine ⟨Nat.le_add_right _ _, ⟨before, text ++ after, List.append_assoc _ _ _, rfl⟩, ?_⟩
    exact ⟨before ++ text, after, rfl, byteLength_append before text⟩
  · obtain ⟨start, stop⟩ := s
    rintro ⟨hle, ⟨a, b, rfl, rfl⟩, ⟨a', b', h, rfl⟩⟩
    rw [Option.isSome_iff_exists]
    rcases List.append_eq_append_iff.1 h with ⟨m, rfl, rfl⟩ | ⟨m, rfl, rfl⟩
    · refine ⟨m, slice?_eq_some_iff.2 ⟨a, b', (List.append_assoc _ _ _).symm, ?_⟩⟩
      rw [byteLength_append]
    · -- the longer part is also the shorter one
      simp only [byteLength_append] at hle ⊢
      obtain rfl : m = [] := eq_nil_of_byteLength (by omega)
      exact ⟨[], slice?_eq_some_iff.2 ⟨a', b, by simp, by simp⟩⟩

/-! ## Trimmed texts -/

/-- What is dropped at the end of a text follows what is left. -/
theorem exists_dropRightWhile (p : Char → Bool) (cs : List Char) :
    ∃ after, cs = dropRightWhile p cs ++ after ∧ ∀ c ∈ after, p c = true := by
  refine ⟨(cs.reverse.takeWhile p).reverse, ?_, ?_⟩
  · rw [dropRightWhile, ← List.reverse_append, List.takeWhile_append_dropWhile, List.reverse_reverse]
  · intro c hc
    exact List.all_eq_true.1 List.all_takeWhile c (List.mem_reverse.1 hc)

/-- A trimmed text stands in the text behind its leading blanks, and only blanks follow it. -/
theorem exists_trim (cs : List Char) :
    ∃ after, cs = cs.takeWhile isBlank ++ trim cs ++ after ∧ ∀ c ∈ after, isBlank c = true := by
  obtain ⟨after, hafter, hblank⟩ := exists_dropRightWhile isBlank (trimLeft cs)
  refine ⟨after, ?_, hblank⟩
  rw [List.append_assoc, trim, trimRight, ← hafter, trimLeft, List.takeWhile_append_dropWhile]

/-! ## Spans in order -/

/-- Has each span a slice that begins where the one before it ended or later? The first begins at `lo` or later. -/
def Ascending (cs : List Char) : Nat → List Span → Prop
  | _, [] => True
  | lo, s :: ss => lo ≤ s.start ∧ (slice? cs s).isSome ∧ Ascending cs s.stop ss

namespace Ascending

variable {cs : List Char} {lo : Nat} {ss : List Span}

theorem mono (h : Ascending cs lo ss) {lo' : Nat} (hle : lo' ≤ lo) : Ascending cs lo' ss := by
  cases ss with
  | nil => trivial
  | cons s ss => exact ⟨Nat.le_trans hle h.1, h.2⟩

/-- None of the spans begins before `lo`, and all of them have slices. -/
theorem forall_mem (h : Ascending cs lo ss) : ∀ s ∈ ss, lo ≤ s.start ∧ (slice? cs s).isSome := by
  induction ss generalizing lo with
  | nil =>
    intro s hs
    cases hs
  | cons t ss ih =>
    obtain ⟨hlo, hslice, hrest⟩ := h
    have hle := (isSome_slice?_iff.1 hslice).1
    intro s hs
    rcases List.mem_cons.1 hs with rfl | hs
    · exact ⟨hlo, hslice⟩
    · obtain ⟨hstart, hs'⟩ := ih hrest s hs
      exact ⟨by omega, hs'⟩

/-- **No span reaches into another.** -/
theorem pairwise (h : Ascending cs lo ss) : ss.Pairwise fun a b => a.stop ≤ b.start := by
  induction ss generalizing lo with
  | nil => exact .nil
  | cons s ss ih =>
    refine .cons ?_ (ih h.2.2)
    intro t ht
    exact (h.2.2.forall_mem t ht).1

end Ascending

end ThermalLabel.Text

import ThermalLabel.Text.Basic

/-!
# Written fields are read back

A writer puts tidy texts between separators; a reader cuts at the separators and trims. Both steps are undone:

* `splitOn_joinWith`: fields without the separator are split again as they were joined;
* `trim_of_tidy`: a text whose ends are not blank is trimmed to itself;
* `joinWith_splitOn`: any text is its fields with the separator between each two of them.
-/

namespace ThermalLabel.Text

/-! ## Tidy texts -/

/-- A text whose first and last characters are not blank. -/
def Tidy (cs : List Char) : Prop := cs.head?.any (!isBlank ·) ∧ cs.getLast?.any (!isBlank ·)

instance (cs : List Char) : Decidable (Tidy cs) := inferInstanceAs (Decidable (_ ∧ _))

theorem Tidy.ne_nil {cs : List Char} (h : Tidy cs) : cs ≠ [] := by
  rintro rfl
  exact absurd h.1 (by simp)

/-- Nothing is dropped if the first character does not satisfy the predicate. -/
theorem dropWhile_of_head {p : Char → Bool} : ∀ {cs : List Char}, cs.head?.any (!p ·) → cs.dropWhile p = cs
  | [], _ => rfl
  | c :: cs, h => by
    have hc : p c = false := by simpa using h
    simp [hc]

/-- Nothing is dropped at the end if the last character does not satisfy the predicate. -/
theorem dropRightWhile_of_getLast {p : Char → Bool} {cs : List Char} (h : cs.getLast?.any (!p ·)) :
    dropRightWhile p cs = cs := by
  rw [dropRightWhile, dropWhile_of_head (by rw [List.head?_reverse]; exact h), List.reverse_reverse]

theorem dropRightWhile_of_all {p : Char → Bool} {cs : List Char} (h : ∀ c ∈ cs, p c = false) :
    dropRightWhile p cs = cs := by
  cases hl : cs.getLast? with
  | none => rw [List.getLast?_eq_none_iff.1 hl]; rfl
  | some c =>
    apply dropRightWhile_of_getLast
    rw [hl]
    simp [h c (List.mem_of_getLast? hl)]

/-- Trimming leaves tidy texts alone. -/
theorem trim_of_tidy {cs : List Char} (h : Tidy cs) : trim cs = cs := by
  rw [trim, trimLeft, dropWhile_of_head h.1, trimRight, dropRightWhile_of_getLast h.2]

/-- A blank at the end is trimmed. -/
theorem trim_concat {cs : List Char} (h : Tidy cs) {b : Char} (hb : isBlank b = true) : trim (cs ++ [b]) = cs := by
  have hhead : (cs ++ [b]).head?.any (!isBlank ·) := by
    obtain ⟨c, hc, hc'⟩ := (Option.any_eq_true _ _).1 h.1
    rw [List.head?_append, hc]
    exact hc'
  rw [trim, trimLeft, dropWhile_of_head hhead, trimRight, dropRightWhile, List.reverse_concat,
    List.dropWhile_cons_of_pos hb]
  exact dropRightWhile_of_getLast h.2

/-- A text of characters other than blanks is tidy. -/
theorem tidy_of_all {cs : List Char} (hne : cs ≠ []) (h : ∀ c ∈ cs, isBlank c = false) : Tidy cs := by
  constructor
  · rw [List.head?_eq_some_head hne]
    simp [h _ (List.head_mem hne)]
  · rw [List.getLast?_eq_some_getLast hne]
    simp [h _ (List.getLast_mem hne)]

/-- A text that begins and ends with tidy texts is tidy. -/
theorem Tidy.append {a b : List Char} (ha : Tidy a) (m : List Char) (hb : Tidy b) : Tidy (a ++ m ++ b) := by
  obtain ⟨x, hx, hx'⟩ := (Option.any_eq_true _ _).1 ha.1
  obtain ⟨y, hy, hy'⟩ := (Option.any_eq_true _ _).1 hb.2
  constructor
  · rw [List.append_assoc, List.head?_append, hx]
    exact hx'
  · rw [List.getLast?_append, hy]
    exact hy'

/-! ## Fields -/

/-- A text without the separator is one field. -/
theorem splitOn_of_not_mem {sep : Char} : ∀ {cs : List Char}, sep ∉ cs → splitOn sep cs = [cs]
  | [], _ => rfl
  | c :: cs, h => by
    obtain ⟨hc, hcs⟩ := not_or.1 (mt List.mem_cons.2 h)
    rw [splitOn, if_neg (Ne.symm hc), splitOn_of_not_mem hcs, extendFirst]

/-- **Fields without the separator are split again as they were joined.** -/
theorem splitOn_joinWith {sep : Char} : ∀ {fs : List (List Char)}, fs ≠ [] → (∀ f ∈ fs, sep ∉ f) →
    splitOn sep (joinWith sep fs) = fs
  | [], hne, _ => absurd rfl hne
  | [f], _, h => splitOn_of_not_mem (h f List.mem_cons_self)
  | f :: g :: fs, _, h => by
    rw [joinWith, splitOn_append_cons, splitOn_of_not_mem (h f List.mem_cons_self),
      splitOn_joinWith (by simp) fun x hx => h x (List.mem_cons_of_mem _ hx)]
    rfl

/-- A character of joined fields is the separator or belongs to a field. -/
theorem mem_joinWith {sep c : Char} : ∀ {fs : List (List Char)}, c ∈ joinWith sep fs → c = sep ∨ ∃ f ∈ fs, c ∈ f
  | [], h => by cases h
  | [f], h => Or.inr ⟨f, List.mem_cons_self, h⟩
  | f :: g :: fs, h => by
    simp only [joinWith, List.mem_append, List.mem_cons] at h
    rcases h with h | h | h
    · exact Or.inr ⟨f, List.mem_cons_self, h⟩
    · exact Or.inl h
    · obtain h | ⟨x, hx, hc⟩ := mem_joinWith h
      · exact Or.inl h
      · exact Or.inr ⟨x, List.mem_cons_of_mem _ hx, hc⟩

/-- Tidy fields joined make a tidy text. -/
theorem tidy_joinWith {sep : Char} : ∀ {fs : List (List Char)}, fs ≠ [] → (∀ f ∈ fs, Tidy f) → Tidy (joinWith sep fs)
  | [], hne, _ => absurd rfl hne
  | [f], _, h => h f List.mem_cons_self
  | f :: g :: fs, _, h => by
    have hf := h f List.mem_cons_self
    have hrest : Tidy (joinWith sep (g :: fs)) :=
      tidy_joinWith (by simp) fun x hx => h x (List.mem_cons_of_mem _ hx)
    rw [joinWith, List.append_cons]
    exact hf.append _ hrest

/-! ## Fields of any text -/

section Split

variable {sep : Char}

theorem joinWith_extendFirst (c : Char) {fs : List (List Char)} (h : fs ≠ []) :
    joinWith sep (extendFirst c fs) = c :: joinWith sep fs := by
  match fs, h with
  | [f], _ => rfl
  | f :: g :: fs, _ => rfl

/-- **A text is its fields** with the separator between each two of them. -/
theorem joinWith_splitOn (cs : List Char) : joinWith sep (splitOn sep cs) = cs := by
  induction cs with
  | nil => rfl
  | cons c cs ih =>
    have hne := splitOn_ne_nil sep cs
    rw [splitOn]
    split
    · rename_i hc
      cases hs : splitOn sep cs with
      | nil => exact absurd hs hne
      | cons f fs =>
        rw [hs] at ih
        rw [joinWith, ih, hc]
        rfl
    · rw [joinWith_extendFirst c hne, ih]

theorem not_mem_of_mem_splitOn {cs : List Char} : ∀ f ∈ splitOn sep cs, sep ∉ f := by
  induction cs with
  | nil =>
    intro f hf
    rw [splitOn, List.mem_singleton] at hf
    rw [hf]
    exact List.not_mem_nil
  | cons c cs ih =>
    rw [splitOn]
    split
    · intro f hf
      rcases List.mem_cons.1 hf with rfl | hf
      · exact List.not_mem_nil
      · exact ih f hf
    · rename_i hc
      intro f hf
      cases hs : splitOn sep cs with
      | nil => exact absurd hs (splitOn_ne_nil sep cs)
      | cons g gs =>
        rw [hs] at hf ih
        rcases List.mem_cons.1 hf with rfl | hf
        · intro hmem
          rcases List.mem_cons.1 hmem with rfl | hmem
          · exact hc rfl
          · exact ih g List.mem_cons_self hmem
        · exact ih f (List.mem_cons_of_mem _ hf)

theorem mem_joinWith_of_mem {f : List Char} {c : Char} : ∀ {fs : List (List Char)}, f ∈ fs → c ∈ f →
    c ∈ joinWith sep fs
  | [g], hf, hc => by
    rw [List.mem_singleton.1 hf] at hc
    exact hc
  | g :: h :: fs, hf, hc => by
    rw [joinWith]
    rcases List.mem_cons.1 hf with rfl | hf
    · exact List.mem_append_left _ hc
    · exact List.mem_append_right _ (List.mem_cons_of_mem _ (mem_joinWith_of_mem hf hc))

/-- Fields are parts of the text. -/
theorem mem_of_mem_splitOn {cs f : List Char} (hf : f ∈ splitOn sep cs) {c : Char} (hc : c ∈ f) : c ∈ cs := by
  have hcs : joinWith sep (splitOn sep cs) = cs := joinWith_splitOn cs
  rw [← hcs]
  exact mem_joinWith_of_mem hf hc

end Split

end ThermalLabel.Text

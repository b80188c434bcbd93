import Mathlib.Data.List.Forall2
import ThermalLabel.Emission
import ThermalLabel.Line.Source
import ThermalLabel.Proofs.Recovery.Assembly
import ThermalLabel.Proofs.Text.Fields

/-!
# Programs written line by line

Lines that need no trimming and hold no line feed are read back as they were written (`map_text_lines`). So a program in
a line language that consists of a header, a line for each element and a footer is recovered from what each of its
lines means on its own (`recoverLines_unlines`).
-/

namespace ThermalLabel

/-! ## Lines -/

/-- A line that is read back as it is written. -/
def IsLine (text : List Char) : Prop := Text.Tidy text ∧ '\n' ∉ text

instance : DecidablePred IsLine := fun text => inferInstanceAs (Decidable (Text.Tidy text ∧ '\n' ∉ text))

/-- A text without line feeds is one piece. -/
theorem lines_of_not_mem {piece : List Char} (h : '\n' ∉ piece) : lines piece = (Line.ofPiece? 0 piece).toList := by
  rw [lines, Text.splitOn_of_not_mem h, linesFrom, linesFrom, List.append_nil]

/-- A line is a program of one line. -/
theorem lines_of_isLine {text : List Char} (h : IsLine text) : lines text = [⟨text, 0⟩] := by
  have hlead : text.takeWhile Text.isBlank = [] := by
    obtain ⟨c, hc, hblank⟩ := (Option.any_eq_true _ _).1 h.1.1
    rw [← List.head?_eq_none_iff, List.head?_takeWhile, hc]
    simpa using hblank
  rw [lines_of_not_mem h.2, Line.ofPiece?, Text.trim_of_tidy h.1, if_neg h.1.ne_nil, hlead]
  rfl

theorem splitOn_unlines : ∀ {ls : List (List Char)}, (∀ l ∈ ls, '\n' ∉ l) →
    Text.splitOn '\n' (unlines ls) = ls ++ [[]]
  | [], _ => rfl
  | l :: ls, h => by
    have hl : unlines (l :: ls) = l ++ '\n' :: unlines ls := by simp [unlines]
    rw [hl, Text.splitOn_append_cons, Text.splitOn_of_not_mem (h l List.mem_cons_self),
      splitOn_unlines fun x hx => h x (List.mem_cons_of_mem _ hx)]
    rfl

theorem map_text_linesFrom : ∀ {ls : List (List Char)} (offset : Nat), (∀ l ∈ ls, IsLine l) →
    (linesFrom offset (ls ++ [[]])).map Line.text = ls
  | [], _, _ => rfl
  | l :: ls, offset, h => by
    have ht := (h l List.mem_cons_self).1
    rw [List.cons_append, linesFrom, List.map_append, map_text_linesFrom _ fun x hx => h x (List.mem_cons_of_mem _ hx)]
    simp [Line.ofPiece?, Text.trim_of_tidy ht, ht.ne_nil]

/-- **The lines of a program written line by line.** -/
theorem map_text_lines {ls : List (List Char)} (h : ∀ l ∈ ls, IsLine l) : (lines (unlines ls)).map Line.text = ls := by
  rw [lines, splitOn_unlines fun l hl => (h l hl).2]
  exact map_text_linesFrom 0 h

/-! ## What lines mean -/

/-- The steps of a line that have an effect, or that it is skipped. -/
def lineEffects : Except Cause (List Step) → List Step
  | .ok ss => ss.filter (· ≠ .setup)
  | .error cause => [.skip cause]

theorem effects_events (line : Line) (steps : Except Cause (List Step)) :
    effects (line.events steps) = lineEffects steps := by
  cases steps with
  | error cause => rfl
  | ok ss =>
    induction ss with
    | nil => rfl
    | cons s ss ih =>
      have hs : effects (line.events (.ok (s :: ss))) = effects [.step s line.span] ++ effects (line.events (.ok ss)) :=
        effects_append [_] _
      rw [hs, ih]
      cases s <;> rfl

section Programs

variable {interpret : List Char → Except Cause (List Step)}

theorem effects_lines (program : List Char) :
    effects ((lines program).flatMap fun line => line.events (interpret line.text)) =
      ((lines program).map Line.text).flatMap fun text => lineEffects (interpret text) := by
  induction lines program with
  | nil => rfl
  | cons line rest ih =>
    rw [List.flatMap_cons, effects_append, effects_events, ih]
    rfl

/-- The meaning of a program written line by line. -/
theorem effects_unlines {ls : List (List Char)} (h : ∀ l ∈ ls, IsLine l) :
    effects ((lines (unlines ls)).flatMap fun line => line.events (interpret line.text)) =
      ls.flatMap fun text => lineEffects (interpret text) := by
  rw [effects_lines, map_text_lines h]

/-- Does a line draw an element and nothing else? -/
def DrawsLine (interpret : List Char → Except Cause (List Step)) (text : List Char) (e : Element) : Prop :=
  IsLine text ∧ ∃ ss, interpret text = .ok ss ∧ Draws ss [e]

/-- The steps that draw are no setup. -/
theorem lineEffects_of_draws {ss : List Step} {es : List Element} (h : Draws ss es) : lineEffects (.ok ss) = ss := by
  induction h with
  | nil => rfl
  | cons _ _ ih => exact congrArg (fun ss => _ :: _ :: ss) ih

/-- Lines that draw an element each draw all of them in order. -/
theorem draws_lines {ls : List (List Char)} {es : List Element} (h : List.Forall₂ (DrawsLine interpret) ls es) :
    (∀ l ∈ ls, IsLine l) ∧ Draws (ls.flatMap fun text => lineEffects (interpret text)) es := by
  induction h with
  | nil => exact ⟨fun l hl => (List.not_mem_nil hl).elim, .nil⟩
  | @cons text e ls es he _ ih =>
    obtain ⟨htext, ss, hss, hd⟩ := he
    obtain ⟨hlines, hdraws⟩ := ih
    rw [List.flatMap_cons, hss, lineEffects_of_draws hd]
    exact ⟨List.forall_mem_cons.2 ⟨htext, hlines⟩, hd.append hdraws⟩

/-- **A program of a header, lines that draw elements and a footer is recovered as these elements.** -/
theorem recoverLines_unlines {l : Language} {header drawn footer : List (List Char)} {page : Extent}
    {declared : List Step} {es : List Element}
    (hframe : ∀ x ∈ header ++ footer, IsLine x)
    (hheader : header.flatMap (fun text => lineEffects (interpret text)) = declared)
    (hpage : Declares page.width page.height declared)
    (hfooter : footer.flatMap (fun text => lineEffects (interpret text)) = [])
    (h : List.Forall₂ (DrawsLine interpret) drawn es) :
    let program := unlines (header ++ drawn ++ footer)
    recoverLines l interpret program = .complete page (Text.byteLength program) es := by
  intro program
  obtain ⟨hlines, hdraws⟩ := draws_lines h
  have hall : ∀ x ∈ header ++ drawn ++ footer, IsLine x := by
    intro x hx
    rcases List.mem_append.1 hx with hx | hx
    · rcases List.mem_append.1 hx with hx | hx
      · exact hframe x (List.mem_append_left _ hx)
      · exact hlines x hx
    · exact hframe x (List.mem_append_right _ hx)
  have he : effects ((lines program).flatMap fun line => line.events (interpret line.text)) =
      declared ++ (drawn).flatMap fun text => lineEffects (interpret text) := by
    rw [effects_unlines hall, List.flatMap_append, List.flatMap_append, hheader, hfooter, List.append_nil]
  exact assemble_of_effects _ he hpage hdraws

end Programs

end ThermalLabel

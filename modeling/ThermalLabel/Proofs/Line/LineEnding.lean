import ThermalLabel.Proofs.Line.Cut
import ThermalLabel.Proofs.Line.Locality
import ThermalLabel.Proofs.Line.Source
import ThermalLabel.Proofs.Recovery.Moved
import ThermalLabel.Proofs.Text.LineEnding

/-!
# Carriage returns at the ends of lines

A carriage return at the end of a line is trimmed like any blank, so the lines of a program with carriage returns are
its lines, moved (`lines_withReturns`). A line holds no line feed, so both ends of its span move on alike
(`Line.Located.movedOffset_stop`). Hence the events are the same, moved (`Language.events_withReturns`).
-/

namespace ThermalLabel

open Text (withReturns movedOffset)

namespace Text

/-- A blank at the end of a text is trimmed. -/
theorem trim_append_blank {b : Char} (hb : isBlank b = true) (cs : List Char) : trim (cs ++ [b]) = trim cs := by
  have hall : ∀ c ∈ [b], isBlank c = true := List.forall_mem_singleton.2 hb
  rw [trim, trim, trimLeft, trimLeft, List.dropWhile_append]
  split
  · rename_i hempty
    rw [List.isEmpty_iff.1 hempty, List.dropWhile_cons_of_pos hb]
    rfl
  · exact dropRightWhile_append_of_all hall _

/-- A text without line feeds moves nothing. -/
theorem movedOffset_of_not_mem {b : List Char} : ∀ {a : List Char} {n : Nat}, '\n' ∉ a → n ≤ byteLength a →
    movedOffset (a ++ b) n = n
  | [], n, _, hn => by
    obtain rfl : n = 0 := Nat.le_zero.1 hn
    exact movedOffset_zero b
  | c :: a, n, ha, hn => by
    rw [List.mem_cons, not_or] at ha
    rw [byteLength_cons] at hn
    rw [List.cons_append, movedOffset]
    split
    · rfl
    · rw [movedOffset_of_not_mem ha.2 (by omega), withReturns_cons (Ne.symm ha.1), withReturns_nil, byteLength_cons,
        byteLength_nil]
      omega

end Text

/-! ## Lines -/

/-- The line with its offset moved. -/
def Line.moved (m : Nat → Nat) (l : Line) : Line := ⟨l.text, m l.start⟩

/-- A blank at the end of a piece makes no difference. -/
theorem Line.ofPiece?_append_blank {b : Char} (hb : Text.isBlank b = true) (offset : Nat) (piece : List Char) :
    ofPiece? offset (piece ++ [b]) = ofPiece? offset piece := by
  unfold ofPiece?
  rw [Text.trim_append_blank hb]
  dsimp only
  split
  · rfl
  · rename_i htrim
    have hlead : (piece ++ [b]).takeWhile Text.isBlank = piece.takeWhile Text.isBlank := by
      rw [List.takeWhile_append]
      refine if_neg fun hlength => htrim ?_
      -- a piece of blanks only is no line
      have hsplit := congrArg List.length (List.takeWhile_append_dropWhile (p := Text.isBlank) (l := piece))
      rw [List.length_append, hlength, Nat.add_eq_left, List.length_eq_zero_iff] at hsplit
      rw [Text.trim, Text.trimLeft, hsplit]
      rfl
    rw [hlead]

theorem lines_append_return {piece : List Char} (h : '\n' ∉ piece) : lines (piece ++ ['\r']) = lines piece := by
  have h' : '\n' ∉ piece ++ ['\r'] := by simp [h]
  rw [lines_of_not_mem h, lines_of_not_mem h', Line.ofPiece?_append_blank (by decide)]

/-- The first line of a program stays where it is. -/
theorem map_moved_of_not_mem {piece : List Char} (h : '\n' ∉ piece) (rest : List Char) :
    (lines piece).map (Line.moved (movedOffset (piece ++ rest))) = lines piece := by
  have hid : ∀ line ∈ lines piece, line.moved (movedOffset (piece ++ rest)) = line := by
    intro line hline
    rw [lines_of_not_mem h] at hline
    obtain ⟨-, hstart⟩ := Line.of_piece (Option.mem_toList.1 hline)
    have hle : Text.byteLength (piece.takeWhile Text.isBlank) ≤ Text.byteLength piece := by
      have hsplit := congrArg Text.byteLength (List.takeWhile_append_dropWhile (p := Text.isBlank) (l := piece))
      rw [Text.byteLength_append] at hsplit
      omega
    rw [Line.moved, Text.movedOffset_of_not_mem h (by omega)]
  exact (List.map_congr_left hid).trans (List.map_id _)

/-- Behind a line an offset moves on by one more. -/
theorem Line.moved_shift {piece : List Char} (h : '\n' ∉ piece) (rest : List Char) (line : Line) :
    (line.moved (movedOffset rest)).shift (Text.byteLength (piece ++ ['\r']) + 1) =
      (line.shift (Text.byteLength piece + 1)).moved (movedOffset (piece ++ '\n' :: rest)) := by
  have hfeed : Text.byteLength (piece ++ ['\n']) = Text.byteLength piece + 1 := Text.byteLength_append _ _
  have hreturn : Text.byteLength (piece ++ ['\r']) = Text.byteLength piece + 1 := Text.byteLength_append _ _
  have hboth : Text.byteLength (withReturns (piece ++ ['\n'])) = Text.byteLength piece + 2 := by
    rw [Text.withReturns_append, Text.withReturns_of_not_mem h]
    exact Text.byteLength_append _ _
  rw [Line.shift, Line.shift, Line.moved, Line.moved, Line.mk.injEq]
  refine ⟨rfl, ?_⟩
  show movedOffset rest line.start + _ = movedOffset _ (line.start + _)
  rw [List.append_cons piece '\n', Nat.add_comm line.start, ← hfeed, Text.movedOffset_append, hboth, hreturn]
  omega

/-- **The lines of a program with carriage returns** are its lines, moved. -/
theorem lines_withReturns (program : List Char) :
    lines (withReturns program) = (lines program).map (Line.moved (movedOffset program)) := by
  have hpieces : ∀ ps : List (List Char), ps ≠ [] → (∀ p ∈ ps, '\n' ∉ p) →
      lines (withReturns (Text.joinWith '\n' ps)) =
        (lines (Text.joinWith '\n' ps)).map (Line.moved (movedOffset (Text.joinWith '\n' ps))) := by
    intro ps
    induction ps with
    | nil => exact fun hne => absurd rfl hne
    | cons p ps ih =>
      intro _ hps
      have hp := hps p List.mem_cons_self
      cases ps with
      | nil =>
        have hmoved := map_moved_of_not_mem hp []
        rw [List.append_nil] at hmoved
        rw [Text.joinWith, Text.withReturns_of_not_mem hp, hmoved]
      | cons q qs =>
        have ih := ih (by simp) fun x hx => hps x (List.mem_cons_of_mem _ hx)
        rw [Text.joinWith, Text.withReturns_append, Text.withReturns_of_not_mem hp, Text.withReturns_lineFeed,
          List.append_cons, lines_append, lines_append_return hp, ih, lines_append, List.map_append,
          map_moved_of_not_mem hp, List.map_map, List.map_map]
        exact congrArg (fun f => lines p ++ List.map f _) (funext fun line => Line.moved_shift hp _ line)
  have h := hpieces (Text.splitOn '\n' program) (Text.splitOn_ne_nil _ _) Text.not_mem_of_mem_splitOn
  rwa [Text.joinWith_splitOn] at h

/-- **Both ends of a line move on alike.** -/
theorem Line.Located.movedOffset_stop {program : List Char} {line : Line} (h : line.Located program) :
    movedOffset program (line.start + Text.byteLength line.text) =
      movedOffset program line.start + Text.byteLength line.text := by
  obtain ⟨before, whole, after, hwhole, htext, hstart⟩ := h
  obtain ⟨blank, hblank, -⟩ := Text.exists_trim whole
  have hlength := congrArg Text.byteLength hblank
  rw [Text.byteLength_append, Text.byteLength_append, ← htext] at hlength
  have hmoved : ∀ n, n ≤ Text.byteLength whole →
      movedOffset program (Text.byteLength before + n) = Text.byteLength (withReturns before) + n := by
    intro n hn
    rw [hwhole.text, List.append_assoc, Text.movedOffset_append, Text.movedOffset_of_not_mem hwhole.one hn]
  rw [hstart, Nat.add_assoc, hmoved _ (by omega), hmoved _ (by omega), Nat.add_assoc]

theorem Line.events_moved {program : List Char} {line : Line} (h : line.Located program)
    (steps : Except Cause (List Step)) : (line.moved (movedOffset program)).events steps =
      (line.events steps).map (Event.moved (movedOffset program)) := by
  have hspan : (line.moved (movedOffset program)).span = line.span.moved (movedOffset program) := by
    rw [Span.moved, Line.span, Line.span, h.movedOffset_stop]
    rfl
  cases steps with
  | ok ss => simp only [Line.events, hspan, List.map_map, Function.comp_def, Event.moved]
  | error cause => simp only [Line.events, hspan, List.map_cons, List.map_nil, Event.moved]

/-- **Lines do the same with carriage returns.** -/
theorem Language.events_withReturns {l : Language} (hl : l ≠ .zpl) (program : List Char) :
    l.events (withReturns program) = (l.events program).map (Event.moved (movedOffset program)) := by
  obtain ⟨interpret, -, hevents⟩ := Language.exists_interpret hl
  rw [hevents, hevents, lines_withReturns, List.flatMap_map, List.map_flatMap, List.flatMap_def, List.flatMap_def]
  refine congrArg List.flatten (List.map_congr_left fun line hline => ?_)
  exact Line.events_moved (located_lines program line hline) _

end ThermalLabel

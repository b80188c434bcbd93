import ThermalLabel.Epl.Recovery
import ThermalLabel.Line.Source
import ThermalLabel.Proofs.Text.Fields
import ThermalLabel.Proofs.Text.Tiling
import ThermalLabel.Tspl.Recovery

/-!
# Lines cut at offsets

A line keeps its offset, so that its span can be marked. **Its text is the slice of its span**
(`Line.Located.slice?_span`): a whole line of the program without the blanks around it (`located_lines`). There is one
line for each piece between line feeds that is not blank (`text_lines`), and lines tile the program (`tiled_lines`). The
one cut that is made in a line, behind the name of an EPL2 command, is checked here, and so is every span: **none
fails** (`Epl.interpret?_eq`, `scanLines?_eq`).
-/

namespace ThermalLabel

/-! ## Lines in a program -/

/-- A whole line of a program, between line feeds or the ends of the program. -/
structure WholeLine (program before line after : List Char) : Prop where
  text : program = before ++ line ++ after
  one : '\n' ∉ line
  starts : ∀ c ∈ before.getLast?, c = '\n'
  ends : ∀ c ∈ after.head?, c = '\n'

/-- A line of a program with the blanks around it left out. -/
def Line.Located (program : List Char) (line : Line) : Prop :=
  ∃ before whole after, WholeLine program before whole after ∧ line.text = Text.trim whole ∧
    line.start = Text.byteLength before + Text.byteLength (whole.takeWhile Text.isBlank)

/-- **The text of a line is the slice of its span.** -/
theorem Line.Located.slice?_span {program : List Char} {line : Line} (h : line.Located program) :
    Text.slice? program line.span = some line.text := by
  obtain ⟨before, whole, after, hwhole, htext, hstart⟩ := h
  obtain ⟨blank, hblank, -⟩ := Text.exists_trim whole
  refine Text.slice?_eq_some_iff.2 ⟨before ++ whole.takeWhile Text.isBlank, blank ++ after, ?_, ?_⟩
  · have hprogram := congrArg (fun whole => before ++ whole ++ after) hblank
    rw [hwhole.text, htext]
    simpa only [List.append_assoc] using hprogram
  · rw [Line.span, hstart, Text.byteLength_append]

theorem Line.of_piece {offset : Nat} {piece : List Char} {line : Line} (h : line ∈ Line.ofPiece? offset piece) :
    line.text = Text.trim piece ∧ line.start = offset + Text.byteLength (piece.takeWhile Text.isBlank) := by
  unfold Line.ofPiece? at h
  dsimp only at h
  split at h
  · cases h
  · obtain rfl := Option.some.inj h
    exact ⟨rfl, rfl⟩

theorem located_linesFrom {ps : List (List Char)} {before : List Char} (hps : ∀ p ∈ ps, '\n' ∉ p)
    (hbefore : ∀ c ∈ before.getLast?, c = '\n') : ∀ line ∈ linesFrom (Text.byteLength before) ps,
      line.Located (before ++ Text.joinWith '\n' ps) := by
  induction ps generalizing before with
  | nil =>
    intro line hline
    cases hline
  | cons p ps ih =>
    intro line hline
    rcases List.mem_append.1 hline with hline | hline
    · obtain ⟨htext, hstart⟩ := Line.of_piece (Option.mem_toList.1 hline)
      cases ps with
      | nil =>
        refine ⟨before, p, [], ⟨?_, hps p List.mem_cons_self, hbefore, nofun⟩, htext, hstart⟩
        rw [List.append_nil]
        rfl
      | cons q qs =>
        refine ⟨before, p, '\n' :: Text.joinWith '\n' (q :: qs), ⟨?_, hps p List.mem_cons_self, hbefore, ?_⟩, htext,
          hstart⟩
        · rw [List.append_assoc]
          rfl
        · intro c hc
          exact (Option.some.inj hc).symm
    · cases ps with
      | nil => cases hline
      | cons q qs =>
        have hlength : Text.byteLength before + Text.byteLength p + 1 = Text.byteLength (before ++ p ++ ['\n']) := by
          rw [Text.byteLength_append, Text.byteLength_append]
          rfl
        have hends : ∀ c ∈ (before ++ p ++ ['\n']).getLast?, c = '\n' := by
          intro c hc
          rw [List.getLast?_concat] at hc
          exact (Option.some.inj hc).symm
        rw [hlength] at hline
        have hlocated := ih (fun x hx => hps x (List.mem_cons_of_mem _ hx)) hends line hline
        rw [List.append_assoc, List.append_assoc] at hlocated
        exact hlocated

/-- **Every line of a program** is a whole line of it without the blanks around it. -/
theorem located_lines (program : List Char) : ∀ line ∈ lines program, line.Located program := by
  have hlocated : ∀ line ∈ linesFrom (Text.byteLength []) (Text.splitOn '\n' program),
      line.Located ([] ++ Text.joinWith '\n' (Text.splitOn '\n' program)) :=
    located_linesFrom Text.not_mem_of_mem_splitOn nofun
  rw [Text.joinWith_splitOn] at hlocated
  exact hlocated

/-- A piece of a program and the line feed behind it, if there is one, go on a tiling. -/
theorem Line.tiled_piece {before piece feed rest : List Char} {ss : List Span}
    (hfeed : ∀ c ∈ feed, Text.isBlank c = true) (h : Text.Tiled (before ++ (piece ++ feed)) rest ss) :
    Text.Tiled before (piece ++ feed ++ rest)
      (((Line.ofPiece? (Text.byteLength before) piece).map Line.span).toList ++ ss) := by
  obtain ⟨blank, hpiece, hblank⟩ := Text.exists_trim piece
  have hlead : ∀ c ∈ piece.takeWhile Text.isBlank, Text.isBlank c = true := fun c hc =>
    List.all_eq_true.1 List.all_takeWhile c hc
  have htail : ∀ c ∈ blank ++ feed, Text.isBlank c = true := List.forall_mem_append.2 ⟨hblank, hfeed⟩
  unfold ofPiece?
  by_cases htrim : Text.trim piece = []
  · rw [if_pos htrim]
    refine .gap ?_ h
    rw [hpiece, htrim, List.append_nil]
    exact List.forall_mem_append.2 ⟨List.forall_mem_append.2 ⟨hlead, hblank⟩, hfeed⟩
  · rw [if_neg htrim]
    have htext : piece ++ feed =
        piece.takeWhile Text.isBlank ++ (Text.trim piece ++ (blank ++ feed)) := by
      rw [← List.append_assoc, ← List.append_assoc, ← hpiece]
    rw [htext, List.append_assoc]
    refine .gap hlead ?_
    have hspan : Line.span ⟨Text.trim piece,
        Text.byteLength before + Text.byteLength (piece.takeWhile Text.isBlank)⟩ =
        ⟨Text.byteLength (before ++ piece.takeWhile Text.isBlank),
          Text.byteLength (before ++ piece.takeWhile Text.isBlank) + Text.byteLength (Text.trim piece)⟩ := by
      rw [Text.byteLength_append]
      rfl
    rw [Option.map_some, hspan]
    refine .unit ?_ htail ?_
    · exact List.append_ne_nil_of_left_ne_nil htrim _
    · rw [htext, ← List.append_assoc] at h
      exact h

/-- **Lines hold all of a program that is not blank.** -/
theorem tiled_lines (program : List Char) : Text.Tiled [] program ((lines program).map Line.span) := by
  have hmap : ∀ (line? : Option Line) (ls : List Line),
      (line?.toList ++ ls).map Line.span = (line?.map Line.span).toList ++ ls.map Line.span := by
    intro line? ls
    cases line? with
    | none => rfl
    | some line => rfl
  have hrun : ∀ (ps : List (List Char)) (before : List Char), Text.Tiled before (Text.joinWith '\n' ps)
      ((linesFrom (Text.byteLength before) ps).map Line.span) := by
    intro ps
    induction ps with
    | nil => exact fun _ => .nil
    | cons p ps ih =>
      intro before
      rw [linesFrom, hmap]
      cases ps with
      | nil =>
        have hpiece : Text.Tiled before (p ++ [] ++ []) _ := Line.tiled_piece nofun .nil
        rw [List.append_nil, List.append_nil] at hpiece
        exact hpiece
      | cons q qs =>
        have hlength : Text.byteLength before + Text.byteLength p + 1 =
            Text.byteLength (before ++ (p ++ ['\n'])) := by
          rw [Text.byteLength_append, Text.byteLength_append, Nat.add_assoc]
          rfl
        have hfeed : ∀ c ∈ ['\n'], Text.isBlank c = true := List.forall_mem_singleton.2 rfl
        rw [hlength]
        have hpiece := Line.tiled_piece hfeed (ih (before ++ (p ++ ['\n'])))
        rw [List.append_assoc] at hpiece
        exact hpiece
  have hall := hrun (Text.splitOn '\n' program) []
  rw [Text.joinWith_splitOn] at hall
  exact hall

/-- **There is one line** for each piece between line feeds that is not blank. -/
theorem text_lines (program : List Char) :
    (lines program).map Line.text = ((Text.splitOn '\n' program).map Text.trim).filter (· ≠ []) := by
  have hrun : ∀ (ps : List (List Char)) (offset : Nat),
      (linesFrom offset ps).map Line.text = (ps.map Text.trim).filter (· ≠ []) := by
    intro ps
    induction ps with
    | nil => exact fun _ => rfl
    | cons p ps ih =>
      intro offset
      rw [linesFrom, List.map_append, ih, List.map_cons]
      unfold Line.ofPiece?
      by_cases htrim : Text.trim p = []
      · rw [if_pos htrim, List.filter_cons_of_neg (by simp [htrim])]
        rfl
      · rw [if_neg htrim, List.filter_cons_of_pos (by simp [htrim])]
        rfl
  exact hrun _ 0

/-! ## Names of EPL2 commands -/

namespace Epl

/-- The number of bytes in the name at the beginning of a line. -/
def nameLength (line : List Char) : Nat :=
  match longNames.find? fun name => name.isPrefixOf line with
  | some name => Text.byteLength name
  | none => Text.byteLength (line.take 1)

/-- **The cut behind a name** never fails. -/
theorem splitBytes?_nameLength (line : List Char) :
    Text.splitBytes? line (nameLength line) = some (splitName line) := by
  unfold nameLength splitName
  split
  · rename_i name hname
    have hfound := List.find?_some hname
    obtain ⟨rest, rfl⟩ := List.isPrefixOf_iff_prefix.1 hfound
    have hmem : name ∈ longNames := List.mem_of_find?_eq_some hname
    have htwo : name.length = 2 := (by decide : ∀ name ∈ longNames, name.length = 2) name hmem
    rw [← htwo, List.take_left, List.drop_left, if_pos hmem]
    exact Text.splitBytes?_eq_some_iff.2 ⟨rfl, rfl⟩
  · rename_i hnone
    have hnot : line.take 2 ∉ longNames := by
      intro hmem
      exact List.find?_eq_none.1 hnone _ hmem (List.isPrefixOf_iff_prefix.2 (List.take_prefix 2 line))
    rw [if_neg hnot]
    exact Text.splitBytes?_eq_some_iff.2 ⟨(List.take_append_drop 1 line).symm, rfl⟩

/-- The steps of a line, if the cut behind its name does not fail. -/
def interpret? (line : List Char) : Option (Except Cause (List Step)) :=
  if line.head? = some ';' then some (.ok [.setup])
  else do
    let (name, rest) ← Text.splitBytes? line (nameLength line)
    return argumentsIn .backslash name rest >>= perform line rest

theorem interpret?_eq (line : List Char) : interpret? line = some (interpret line) := by
  unfold interpret? interpret
  split
  · rfl
  · rw [splitBytes?_nameLength]
    rfl

end Epl

/-! ## Scanning -/

/-- The events of lines, if no cut and no span fails. -/
def scanLines? (interpret? : List Char → Option (Except Cause (List Step))) : List Line → Option (List Event)
  | [] => some []
  | line :: rest => do
    let span ← (Span.between line.start (line.start + Text.byteLength line.text)).toOption
    let es :=
      match ← interpret? line.text with
      | .ok ss => ss.map (.step · span)
      | .error cause => [.step (.skip cause) span]
    return es ++ (← scanLines? interpret? rest)

/-- **No cut and no span fails** in lines. -/
theorem scanLines?_eq {interpret? : List Char → Option (Except Cause (List Step))}
    {interpret : List Char → Except Cause (List Step)} (h : ∀ text, interpret? text = some (interpret text))
    (ls : List Line) : scanLines? interpret? ls = some (ls.flatMap fun line => line.events (interpret line.text)) := by
  induction ls with
  | nil => rfl
  | cons line ls ih =>
    have hspan : Span.between line.start (line.start + Text.byteLength line.text) = .ok line.span :=
      if_pos (Nat.le_add_right _ _)
    rw [scanLines?, hspan, h, ih]
    cases hsteps : interpret line.text with
    | ok ss =>
      rw [List.flatMap_cons, hsteps]
      rfl
    | error cause =>
      rw [List.flatMap_cons, hsteps]
      rfl

end ThermalLabel

import ThermalLabel.Proofs.Recovery.Report

/-!
# Lines do not see each other

In EPL2 and TSPL every line is read on its own. Text in front of a line only moves it (`lines_append`), and a line
leaves no position behind: what it draws has its place in the same line (`Assembly.Settled.line`). So two texts with a
line feed between them draw what they draw apart (`recover_append_lineFeed`).
-/

namespace ThermalLabel

/-! ## Lines of two texts -/

/-- The line moved on by `k` bytes. -/
def Line.shift (k : Nat) (l : Line) : Line := ⟨l.text, l.start + k⟩

theorem Line.ofPiece?_shift (k offset : Nat) (piece : List Char) :
    ofPiece? (offset + k) piece = (ofPiece? offset piece).map (Line.shift k) := by
  unfold ofPiece?
  dsimp only
  split
  · rfl
  · rw [Option.map_some, Line.shift, Nat.add_right_comm]

theorem Line.events_shift (k : Nat) (l : Line) (steps : Except Cause (List Step)) :
    (l.shift k).events steps = (l.events steps).map (Event.shift k) := by
  have hspan : (l.shift k).span = l.span.shift k := by
    rw [Line.span, Line.shift, Nat.add_right_comm]
    rfl
  cases steps with
  | ok ss => simp only [Line.events, hspan, List.map_map, Function.comp_def, Event.shift]
  | error cause => simp only [Line.events, hspan, List.map_cons, List.map_nil, Event.shift]

/-- The bytes of pieces with a line feed after each. -/
def piecesLength : List (List Char) → Nat
  | [] => 0
  | p :: ps => Text.byteLength p + 1 + piecesLength ps

/-- All pieces of a text have one line feed more than the text. -/
theorem piecesLength_splitOn : ∀ cs : List Char, piecesLength (Text.splitOn '\n' cs) = Text.byteLength cs + 1
  | [] => rfl
  | c :: cs => by
    have ih := piecesLength_splitOn cs
    rw [Text.splitOn]
    split
    · rename_i hc
      have hbyte : c.utf8Size = 1 := by
        rw [hc]
        rfl
      rw [piecesLength, Text.byteLength_cons, Text.byteLength_nil, hbyte]
      omega
    · cases hs : Text.splitOn '\n' cs with
      | nil => exact absurd hs (Text.splitOn_ne_nil '\n' cs)
      | cons p ps =>
        rw [hs, piecesLength] at ih
        rw [Text.extendFirst, piecesLength, Text.byteLength_cons, Text.byteLength_cons]
        omega

theorem linesFrom_shift (k : Nat) : ∀ (offset : Nat) (ps : List (List Char)),
    linesFrom (offset + k) ps = (linesFrom offset ps).map (Line.shift k)
  | _, [] => rfl
  | offset, p :: ps => by
    have hnext : offset + k + Text.byteLength p + 1 = offset + Text.byteLength p + 1 + k := by omega
    rw [linesFrom, linesFrom, List.map_append, hnext, linesFrom_shift k _ ps, Line.ofPiece?_shift, Option.toList_map]

theorem linesFrom_append : ∀ (offset : Nat) (ps qs : List (List Char)),
    linesFrom offset (ps ++ qs) = linesFrom offset ps ++ linesFrom (offset + piecesLength ps) qs
  | _, [], _ => rfl
  | offset, p :: ps, qs => by
    have hnext : offset + Text.byteLength p + 1 + piecesLength ps = offset + piecesLength (p :: ps) := by
      rw [piecesLength]
      omega
    rw [List.cons_append, linesFrom, linesFrom, linesFrom_append _ ps qs, hnext, List.append_assoc]

/-- **The lines of two texts** with a line feed between them. -/
theorem lines_append (a b : List Char) :
    lines (a ++ '\n' :: b) = lines a ++ (lines b).map (Line.shift (Text.byteLength a + 1)) := by
  rw [lines, Text.splitOn_append_cons, linesFrom_append, piecesLength_splitOn, Nat.zero_add]
  have hshift := linesFrom_shift (Text.byteLength a + 1) 0 (Text.splitOn '\n' b)
  rw [Nat.zero_add] at hshift
  rw [hshift]
  rfl

/-! ## Between lines -/

/-- No position is left, and nothing but commands was found wrong. -/
structure Assembly.Settled (a : Assembly) : Prop where
  position : a.position = none
  refusals : ∀ f ∈ a.findings, f.cause.IsRefusal

/-- **A line leaves no position behind**, whether it draws or is skipped. -/
theorem Assembly.Settled.line {a : Assembly} (h : a.Settled) (line : Line) {steps : Except Cause (List Step)}
    (hsteps : Yields LineSteps steps) : ((line.events steps).foldl feed a).Settled := by
  cases steps with
  | error cause =>
    refine ⟨h.position, ?_⟩
    intro f hf
    rcases List.mem_append.1 hf with hf | hf
    · exact h.refusals f hf
    · rw [List.mem_singleton.1 hf]
      exact hsteps
  | ok ss =>
    cases hsteps with
    | draw place hc => exact ⟨rfl, h.refusals⟩
    | page width height => exact ⟨h.position, h.refusals⟩
    | setup => exact h

/-- That nothing was drawn is the only report that is not about a command. -/
theorem Assembly.Settled.filter_diagnostics {a : Assembly} (h : a.Settled) (length : Nat) :
    (a.finish length).diagnostics.filter (·.id ≠ "LBL1104") = a.findings.map Finding.diagnostic := by
  refine Assembly.filter_diagnostics ?_ length
  intro f hf hnothing
  have hrefusal := h.refusals f hf
  rw [hnothing] at hrefusal
  exact hrefusal

theorem Assembly.Settled.id_ne {a : Assembly} (h : a.Settled) (length : Nat) :
    ∀ d ∈ (a.finish length).diagnostics, d.id ≠ "LBL1103" := by
  intro d hd
  rcases Assembly.mem_diagnostics hd with ⟨f, hf, rfl⟩ | rfl
  · show f.cause.code.id ≠ _
    rcases (h.refusals f hf).code with hcode | hcode
    · rw [hcode]
      decide
    · rw [hcode]
      decide
  · show Code.id .noElements ≠ _
    decide

/-- The scanner of a line language reads each line on its own. -/
theorem Language.exists_interpret {l : Language} (hl : l ≠ .zpl) :
    ∃ interpret : List Char → Except Cause (List Step), (∀ text, Yields LineSteps (interpret text)) ∧
      ∀ program, l.events program = (lines program).flatMap fun line => line.events (interpret line.text) := by
  cases l with
  | zpl => exact absurd rfl hl
  | epl => exact ⟨Epl.interpret, Epl.yields_interpret, fun _ => rfl⟩
  | tspl => exact ⟨Tspl.interpret, Tspl.yields_interpret, fun _ => rfl⟩

section LineLanguages

variable {l : Language} (hl : l ≠ .zpl)

include hl

/-- The scanner is between lines at the end of any text. -/
theorem Language.settled_assembly (program : List Char) : (l.assembly program).Settled := by
  obtain ⟨interpret, hyields, hevents⟩ := Language.exists_interpret hl
  -- by induction on the lines, each of which starts and ends settled
  have hrun : ∀ (ls : List Line) (a : Assembly), a.Settled →
      ((ls.flatMap fun line => line.events (interpret line.text)).foldl Assembly.feed a).Settled := by
    intro ls
    induction ls with
    | nil => exact fun a ha => ha
    | cons line ls ih =>
      intro a ha
      rw [List.flatMap_cons, List.foldl_append]
      exact ih _ (ha.line line (hyields line.text))
  rw [Language.assembly, hevents]
  exact hrun _ _ ⟨rfl, fun f hf => (List.not_mem_nil hf).elim⟩

theorem Language.events_append (a b : List Char) : l.events (a ++ '\n' :: b) =
    l.events a ++ (l.events b).map (Event.shift (Text.byteLength a + 1)) := by
  obtain ⟨interpret, -, hevents⟩ := Language.exists_interpret hl
  rw [hevents, hevents, hevents, lines_append, List.flatMap_append, List.flatMap_map, List.map_flatMap]
  refine congrArg (fun f => _ ++ (lines b).flatMap f) (funext fun line => ?_)
  exact Line.events_shift _ line _

/-- The second text adds what it is on its own. -/
theorem Language.assembly_append (a b : List Char) :
    l.assembly (a ++ '\n' :: b) = (l.assembly a).followedBy (Text.byteLength a + 1) (l.assembly b) := by
  have hlanguage : (l.assembly a).language = l :=
    l.assembly_induction (P := fun x => x.language = l) a rfl fun x hx e _ => (x.language_feed e).trans hx
  have hrun := Assembly.foldl_feed_shift (Language.settled_assembly hl a).position (Text.byteLength a + 1) (l.events b)
  rw [hlanguage] at hrun
  rw [Language.assembly, Language.events_append hl, List.foldl_append]
  exact hrun

end LineLanguages

/--
**Lines do not see each other.** A line feed between two texts of EPL2 or TSPL leaves the elements of both, numbered on,
what was skipped in both and the reports on both, moved to where the second text stands. No text leaves a position
behind, and so no content lacks one.
-/
theorem recover_append_lineFeed {l : Language} (hl : l ≠ .zpl) (a b : String) :
    let both := recover l (a ++ "\n" ++ b)
    let reports (r : Recovered) := r.diagnostics.filter (·.id ≠ "LBL1104")
    both.elements = renumbered ((recover l a).elements ++ (recover l b).elements) ∧
      both.skipped = (recover l a).skipped + (recover l b).skipped ∧
      reports both = reports (recover l a) ++
        (reports (recover l b)).map (Diagnostic.shift (Text.byteLength a.toList + 1)) ∧
      ∀ program : String, (l.assembly program.toList).position = none ∧
        ∀ d ∈ (recover l program).diagnostics, d.id ≠ "LBL1103" := by
  intro both reports
  have hsettled := Language.settled_assembly hl
  have htext : (a ++ "\n" ++ b).toList = a.toList ++ '\n' :: b.toList := by
    rw [String.toList_append, String.toList_append, List.append_assoc]
    rfl
  have hboth : both = ((l.assembly a.toList).followedBy (Text.byteLength a.toList + 1) (l.assembly b.toList)).finish
      (Text.byteLength (a.toList ++ '\n' :: b.toList)) := by
    rw [← Language.assembly_append hl, ← htext]
    exact recover_eq l _
  have hreports : ∀ program : String,
      reports (recover l program) = (l.assembly program.toList).findings.map Finding.diagnostic := by
    intro program
    rw [recover_eq]
    exact (hsettled program.toList).filter_diagnostics _
  refine ⟨?_, ?_, ?_, ?_⟩
  · have hnumbered : renumbered (l.assembly a.toList).elements = (l.assembly a.toList).elements := by
      have h := renumbered_recovered l a.toList
      rwa [recoverChars_eq] at h
    rw [hboth, recover_eq, recover_eq, renumbered_append]
    exact congrArg (· ++ _) hnumbered.symm
  · rw [hboth, recover_eq, recover_eq]
    rfl
  · have hmoved : reports both =
        ((l.assembly a.toList).followedBy (Text.byteLength a.toList + 1) (l.assembly b.toList)).findings.map
          Finding.diagnostic := by
      rw [← Language.assembly_append hl, ← htext]
      exact hreports _
    rw [hmoved, hreports, hreports, Assembly.followedBy, List.map_append, List.map_map, List.map_map]
    rfl
  · intro program
    refine ⟨(hsettled program.toList).position, ?_⟩
    rw [recover_eq]
    exact (hsettled program.toList).id_ne _

/-- A text cut off within quotes is skipped, and so is a box cut off on the last line; the bar between them is drawn. -/
theorem recover_append_lineFeed_of_cut :
    let a := "A10,20,0,3,1,1,N,\"cut"
    let b := "LO5,6,7,8\r\nX1,2,3,4"
    Language.epl ≠ .zpl ∧ (recover .epl (a ++ "\n" ++ b)).elements =
        [{ id := 1, position := ⟨5, 6⟩, size := ⟨7, 8⟩, kind := .line ⟨⟨7, by decide⟩⟩ }] ∧
      (recover .epl (a ++ "\n" ++ b)).skipped = 2 := by
  intro a b
  have hl : Language.epl ≠ .zpl := by decide
  obtain ⟨helements, hskipped, -, -⟩ := recover_append_lineFeed hl a b
  have ha : (recover .epl a).elements = [] ∧ (recover .epl a).skipped = 1 := ⟨by decide +kernel, by decide +kernel⟩
  have hb : (recover .epl b).elements =
      [{ id := 1, position := ⟨5, 6⟩, size := ⟨7, 8⟩, kind := .line ⟨⟨7, by decide⟩⟩ }] ∧
        (recover .epl b).skipped = 1 := ⟨by decide +kernel, by decide +kernel⟩
  refine ⟨hl, helements.trans ?_, hskipped.trans ?_⟩
  · rw [ha.1, hb.1]
    rfl
  · rw [ha.2, hb.2]

end ThermalLabel

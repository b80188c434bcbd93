import ThermalLabel.Proofs.Epl.RoundTrip
import ThermalLabel.Proofs.Line.Steps

/-!
# EPL2 setup lines

Which lines have no effect is said by a grammar (`IsSetupLine`): a comment, or the name of a setup command with
arguments of its form, which are runs of digits or of capitals and digits between commas. The scanner finds the name
first, then splits the rest at commas outside quotes and only then looks at the form of the rest. It **accepts exactly
the grammar** (`isSetup_splitName_iff`), and since no rest of that form holds a quote, splitting does not come in
between (`interpret_of_isSetup`). Any other line draws, declares a side of the page or is skipped, and the first two
only under the names for it (`acts_of_perform`). This is **what is fed for a line** (`feeds_fed`), wherever it stands.
-/

namespace ThermalLabel.Epl

open Text (joinWith splitOn)

/-! ## The grammar -/

/-- One or more characters of a class. -/
structure IsRun (p : Char → Bool) (run : List Char) : Prop where
  ne_nil : run ≠ []
  all : ∀ c ∈ run, p c

/-- The lines without effect on elements. -/
inductive IsSetupLine : List Char → Prop
  /-- A comment. -/
  | comment (text : List Char) : IsSetupLine (';' :: text)
  /-- An empty label. -/
  | clear : IsSetupLine ['N']
  | formFeed : IsSetupLine ['J', 'F']
  | backFeed : IsSetupLine ['J', 'B']
  /-- A number of labels. -/
  | print {sets : List Char} : IsRun Char.isDigit sets → IsSetupLine ('P' :: sets)
  /-- A number of labels and of copies of each. -/
  | printCopies {sets copies : List Char} : IsRun Char.isDigit sets → IsRun Char.isDigit copies →
      IsSetupLine ('P' :: (sets ++ ',' :: copies))
  | speed {digits : List Char} : IsRun Char.isDigit digits → IsSetupLine ('S' :: digits)
  | density {digits : List Char} : IsRun Char.isDigit digits → IsSetupLine ('D' :: digits)
  | fromTop : IsSetupLine ['Z', 'T']
  | fromBottom : IsSetupLine ['Z', 'B']
  /-- The number of data bits, code page and country. -/
  | characterSet {first : List Char} {others : List (List Char)} : first.head?.any Char.isDigit →
      (∀ run ∈ first :: others, IsRun isTokenChar run) → IsSetupLine ('I' :: joinWith ',' (first :: others))
  /-- The point from which positions count. -/
  | reference {x y : List Char} : IsRun Char.isDigit x → IsRun Char.isDigit y → IsSetupLine ('R' :: (x ++ ',' :: y))
  | plainOptions : IsSetupLine ['O']
  | options {runs : List (List Char)} : runs ≠ [] → (∀ run ∈ runs, IsRun isTokenChar run) →
      IsSetupLine ('O' :: joinWith ',' runs)

/-! ## Runs -/

section Runs

variable {p : Char → Bool} {text : List Char} {runs : List (List Char)}

theorem isRun_iff {run : List Char} : (!run.isEmpty && run.all p) = true ↔ IsRun p run := by
  rw [Bool.and_eq_true, Bool.not_eq_true', List.isEmpty_eq_false_iff, List.all_eq_true]
  exact ⟨fun ⟨hne, hall⟩ => ⟨hne, hall⟩, fun ⟨hne, hall⟩ => ⟨hne, hall⟩⟩

theorem isFields_iff : isFields p text = true ↔ ∀ run ∈ splitOn ',' text, IsRun p run := by
  rw [isFields, List.all_eq_true]
  exact forall₂_congr fun run _ => isRun_iff

/-- Runs of characters other than commas are split again as they were joined. -/
theorem splitOn_runs (hp : p ',' = false) (hne : runs ≠ []) (h : ∀ run ∈ runs, IsRun p run) :
    splitOn ',' (joinWith ',' runs) = runs := by
  refine Text.splitOn_joinWith hne fun run hrun hcomma => ?_
  have hall := (h run hrun).all ',' hcomma
  rw [hp] at hall
  cases hall

theorem isFields_joinWith (hp : p ',' = false) (hne : runs ≠ []) (h : ∀ run ∈ runs, IsRun p run) :
    isFields p (joinWith ',' runs) = true ∧ fieldCount (joinWith ',' runs) = runs.length := by
  rw [isFields_iff, fieldCount, splitOn_runs hp hne h]
  exact ⟨h, rfl⟩

/-- Joined fields begin as the first of them, unless it is empty. -/
theorem head?_joinWith {first : List Char} {others : List (List Char)} (h : first ≠ []) :
    (joinWith ',' (first :: others)).head? = first.head? := by
  cases others with
  | nil => rfl
  | cons other others => rw [joinWith, List.head?_append_of_ne_nil _ h]

/-- A text of one field is this field. -/
theorem splitOn_of_fieldCount_one (h : fieldCount text = 1) : splitOn ',' text = [text] := by
  obtain ⟨run, hrun⟩ := List.length_eq_one_iff.1 h
  have htext : joinWith ',' (splitOn ',' text) = text := Text.joinWith_splitOn text
  rw [hrun] at htext ⊢
  rw [← htext]
  rfl

/-- A text of two fields is these with a comma between them. -/
theorem exists_of_fieldCount_two (h : fieldCount text = 2) :
    ∃ x y, splitOn ',' text = [x, y] ∧ text = x ++ ',' :: y := by
  obtain ⟨x, y, hxy⟩ := List.length_eq_two.1 h
  have htext : joinWith ',' (splitOn ',' text) = text := Text.joinWith_splitOn text
  rw [hxy] at htext
  exact ⟨x, y, hxy, htext.symm⟩

/-- Fields have no quotes if their runs have none. -/
theorem quote_not_mem_of_isFields (hp : p '"' = false) (h : isFields p text = true) : '"' ∉ text := by
  intro hquote
  have htext : joinWith ',' (splitOn ',' text) = text := Text.joinWith_splitOn text
  rw [← htext] at hquote
  rcases Text.mem_joinWith hquote with hcomma | ⟨run, hrun, hmem⟩
  · exact absurd hcomma (by decide)
  · have hall := (isFields_iff.1 h run hrun).all '"' hmem
    rw [hp] at hall
    cases hall

end Runs

/-! ## Acceptance -/

/-- A name and what follows it are the line. -/
theorem append_splitName (line : List Char) : (splitName line).1 ++ (splitName line).2 = line := by
  unfold splitName
  split
  · exact List.take_append_drop 2 line
  · exact List.take_append_drop 1 line

/-- What is accepted follows the grammar. -/
theorem isSetupLine_of_isSetup {name rest : List Char} (h : isSetup name rest = true) : IsSetupLine (name ++ rest) := by
  unfold isSetup at h
  split at h
  · rw [List.isEmpty_iff.1 h]
    exact .clear
  · rw [List.isEmpty_iff.1 h]
    exact .formFeed
  · rw [List.isEmpty_iff.1 h]
    exact .backFeed
  · obtain ⟨hfields, hcount⟩ := Bool.and_eq_true_iff.1 h
    have hpos : 0 < fieldCount rest := List.length_pos_iff.2 (Text.splitOn_ne_nil ',' rest)
    have hcount : fieldCount rest = 1 ∨ fieldCount rest = 2 := by
      have := of_decide_eq_true hcount
      omega
    rw [isFields_iff] at hfields
    rcases hcount with hone | htwo
    · rw [splitOn_of_fieldCount_one hone] at hfields
      exact .print (hfields rest List.mem_cons_self)
    · obtain ⟨x, y, hsplit, rfl⟩ := exists_of_fieldCount_two htwo
      rw [hsplit] at hfields
      exact .printCopies (hfields x List.mem_cons_self) (hfields y (List.mem_cons_of_mem _ List.mem_cons_self))
  · obtain ⟨hfields, hcount⟩ := Bool.and_eq_true_iff.1 h
    rw [isFields_iff, splitOn_of_fieldCount_one (of_decide_eq_true hcount)] at hfields
    exact .speed (hfields rest List.mem_cons_self)
  · obtain ⟨hfields, hcount⟩ := Bool.and_eq_true_iff.1 h
    rw [isFields_iff, splitOn_of_fieldCount_one (of_decide_eq_true hcount)] at hfields
    exact .density (hfields rest List.mem_cons_self)
  · rcases Bool.or_eq_true_iff.1 h with htop | hbottom
    · rw [of_decide_eq_true htop]
      exact .fromTop
    · rw [of_decide_eq_true hbottom]
      exact .fromBottom
  · obtain ⟨hdigit, hfields⟩ := Bool.and_eq_true_iff.1 h
    rw [isFields_iff] at hfields
    obtain ⟨first, others, hsplit⟩ := List.exists_cons_of_ne_nil (Text.splitOn_ne_nil ',' rest)
    have hrest : joinWith ',' (splitOn ',' rest) = rest := Text.joinWith_splitOn rest
    rw [hsplit] at hfields hrest
    rw [← hrest] at hdigit ⊢
    rw [head?_joinWith (hfields first List.mem_cons_self).ne_nil] at hdigit
    exact .characterSet hdigit hfields
  · obtain ⟨hfields, hcount⟩ := Bool.and_eq_true_iff.1 h
    obtain ⟨x, y, hsplit, rfl⟩ := exists_of_fieldCount_two (of_decide_eq_true hcount)
    rw [isFields_iff, hsplit] at hfields
    exact .reference (hfields x List.mem_cons_self) (hfields y (List.mem_cons_of_mem _ List.mem_cons_self))
  · rcases Bool.or_eq_true_iff.1 h with hempty | hfields
    · rw [List.isEmpty_iff.1 hempty]
      exact .plainOptions
    · rw [isFields_iff] at hfields
      have hoptions := IsSetupLine.options (Text.splitOn_ne_nil ',' rest) hfields
      rw [Text.joinWith_splitOn] at hoptions
      exact hoptions
  · cases h

/-- What follows the grammar is accepted, comments apart. -/
theorem isSetup_of_isSetupLine {line : List Char} (hcomment : line.head? ≠ some ';') (h : IsSetupLine line) :
    isSetup (splitName line).1 (splitName line).2 = true := by
  have hdigits {runs : List (List Char)} (hne : runs ≠ []) (hall : ∀ run ∈ runs, IsRun Char.isDigit run) :=
    isFields_joinWith (by decide) hne hall
  have htokens {runs : List (List Char)} (hne : runs ≠ []) (hall : ∀ run ∈ runs, IsRun isTokenChar run) :=
    isFields_joinWith (by decide) hne hall
  cases h with
  | comment text => exact absurd rfl hcomment
  | clear | formFeed | backFeed | fromTop | fromBottom | plainOptions => rfl
  | @print sets hsets =>
    obtain ⟨hfields, hcount⟩ := hdigits (List.cons_ne_nil sets []) (List.forall_mem_singleton.2 hsets)
    rw [splitName_cons (by decide) (by decide)]
    exact Bool.and_eq_true_iff.2 ⟨hfields, decide_eq_true (hcount.symm ▸ Nat.le_succ 1)⟩
  | @printCopies sets copies hsets hcopies =>
    obtain ⟨hfields, hcount⟩ := hdigits (List.cons_ne_nil sets [copies])
      (List.forall_mem_cons.2 ⟨hsets, List.forall_mem_singleton.2 hcopies⟩)
    rw [splitName_cons (by decide) (by decide)]
    exact Bool.and_eq_true_iff.2 ⟨hfields, decide_eq_true (Nat.le_of_eq hcount)⟩
  | @speed digits h | @density digits h =>
    obtain ⟨hfields, hcount⟩ := hdigits (List.cons_ne_nil digits []) (List.forall_mem_singleton.2 h)
    rw [splitName_cons (by decide) (by decide)]
    exact Bool.and_eq_true_iff.2 ⟨hfields, decide_eq_true hcount⟩
  | @characterSet first others hfirst hruns =>
    obtain ⟨hfields, -⟩ := htokens (List.cons_ne_nil first others) hruns
    rw [splitName_cons (by decide) (by decide)]
    refine Bool.and_eq_true_iff.2 ⟨?_, hfields⟩
    rw [head?_joinWith (hruns first List.mem_cons_self).ne_nil]
    exact hfirst
  | @reference x y hx hy =>
    obtain ⟨hfields, hcount⟩ := hdigits (List.cons_ne_nil x [y])
      (List.forall_mem_cons.2 ⟨hx, List.forall_mem_singleton.2 hy⟩)
    rw [splitName_cons (by decide) (by decide)]
    exact Bool.and_eq_true_iff.2 ⟨hfields, decide_eq_true hcount⟩
  | @options runs hne hruns =>
    obtain ⟨hfields, -⟩ := htokens hne hruns
    rw [splitName_cons (by decide) (by decide)]
    exact Bool.or_eq_true_iff.2 (.inr hfields)

/-- **The form of the rest accepts exactly the grammar.** -/
theorem isSetup_splitName_iff {line : List Char} (h : line.head? ≠ some ';') :
    isSetup (splitName line).1 (splitName line).2 = true ↔ IsSetupLine line := by
  refine ⟨fun hsetup => ?_, isSetup_of_isSetupLine h⟩
  have hline := isSetupLine_of_isSetup hsetup
  rw [append_splitName] at hline
  exact hline

/-! ## Reading a line -/

/-- No rest of a setup command holds a quote. -/
theorem quote_not_mem_of_isSetup {name rest : List Char} (h : isSetup name rest = true) : '"' ∉ rest := by
  have hdigits {text : List Char} : isFields Char.isDigit text = true → '"' ∉ text :=
    quote_not_mem_of_isFields (by decide)
  have htokens {text : List Char} : isFields isTokenChar text = true → '"' ∉ text :=
    quote_not_mem_of_isFields (by decide)
  have hempty {text : List Char} (h : text.isEmpty = true) : '"' ∉ text := by
    rw [List.isEmpty_iff.1 h]
    exact List.not_mem_nil
  unfold isSetup at h
  split at h
  · exact hempty h
  · exact hempty h
  · exact hempty h
  · exact hdigits (Bool.and_eq_true_iff.1 h).1
  · exact hdigits (Bool.and_eq_true_iff.1 h).1
  · exact hdigits (Bool.and_eq_true_iff.1 h).1
  · rcases Bool.or_eq_true_iff.1 h with h | h
    · rw [of_decide_eq_true h]
      decide
    · rw [of_decide_eq_true h]
      decide
  · exact htokens (Bool.and_eq_true_iff.1 h).2
  · exact hdigits (Bool.and_eq_true_iff.1 h).1
  · rcases Bool.or_eq_true_iff.1 h with h | h
    · exact hempty h
    · exact htokens h
  · cases h

/-- The name of a setup command is no name of another command. -/
theorem perform_of_isSetup {line rest : List Char} {a : Arguments} (h : isSetup a.command rest = true) :
    perform line rest a = .ok [.setup] := by
  unfold perform
  split
  case h_7 => exact if_pos h
  all_goals
    rename_i hname
    rw [hname] at h
    cases h

/-- **A setup command is read as such**: splitting the rest at its commas does not fail. -/
theorem interpret_of_isSetup {line : List Char} (hcomment : line.head? ≠ some ';')
    (h : isSetup (splitName line).1 (splitName line).2 = true) : interpret line = .ok [.setup] := by
  have hsplit := split_of_not_mem .backslash (quote_not_mem_of_isSetup h)
  rw [interpret, if_neg hcomment]
  dsimp only
  rw [argumentsIn, hsplit]
  exact perform_of_isSetup h

/-- The names of commands that draw. -/
def drawingNames : List (List Char) := [['A'], ['B'], ['X'], ['L', 'O']]

/-- What a line does that is no setup line. -/
inductive Acts (line : List Char) : List Step → Prop
  | draw {name : List Char} (place : Point) (c : Content) : name ∈ drawingNames → name <+: line →
      Acts line [.position place, .content c]
  | width (w : UInt32) : ['q'] <+: line → Acts line [.page (some w) none]
  | height (h : UInt32) : ['Q'] <+: line → Acts line [.page none (some h)]
  | skip (cause : Cause) : Acts line [.skip cause]

/-- Reading a command that draws and does not fail acts by its name. -/
theorem Acts.of_drawing {line name : List Char} {read : Except Cause (List Step)} {ss : List Step}
    (hread : Yields DrawingSteps read) (h : read = .ok ss) (hname : name ∈ drawingNames) (hbegins : name <+: line) :
    Acts line ss := by
  subst h
  obtain ⟨place, -⟩ : DrawingSteps ss := hread
  exact .draw place _ hname hbegins

/-- What a command does by its name. -/
theorem acts_of_perform {line rest : List Char} {a : Arguments} (hbegins : a.command <+: line) {ss : List Step}
    (h : perform line rest a = .ok ss) : (isSetup a.command rest = true ∧ ss = [.setup]) ∨ Acts line ss := by
  unfold perform at h
  split at h
  case h_7 =>
    split at h
    · rename_i hsetup
      exact .inl ⟨hsetup, (Except.ok.inj h).symm⟩
    · cases h
  all_goals
    rename_i hname
    rw [hname] at hbegins
    right
  · exact .of_drawing (yields_text a) h (by decide) hbegins
  · exact .of_drawing (yields_barcode a) h (by decide) hbegins
  · exact .of_drawing (yields_box a) h (by decide) hbegins
  · exact .of_drawing (yields_solidBar a) h (by decide) hbegins
  · cases hw : a.word 0 "width" with
    | error cause =>
      rw [hw] at h
      cases h
    | ok w =>
      rw [hw] at h
      rw [← Except.ok.inj h]
      exact .width w hbegins
  · cases hh : a.word 0 "height" with
    | error cause =>
      rw [hh] at h
      cases h
    | ok w =>
      rw [hh] at h
      rw [← Except.ok.inj h]
      exact .height w hbegins

/-! ## What is fed -/

/-- The steps that are fed for a line. -/
def fed (line : List Char) : List Step :=
  match interpret line with
  | .ok ss => ss
  | .error cause => [.skip cause]

theorem events_fed (l : Line) : l.events (interpret l.text) = (fed l.text).map (.step · l.span) := by
  rw [fed]
  cases interpret l.text with
  | ok ss => rfl
  | error cause => rfl

/-- A line is a setup line and fed as such, or it acts. -/
theorem fed_cases (line : List Char) : (IsSetupLine line ∧ fed line = [.setup]) ∨ Acts line (fed line) := by
  by_cases hcomment : line.head? = some ';'
  · obtain ⟨text, rfl⟩ := List.head?_eq_some_iff.1 hcomment
    exact .inl ⟨.comment text, rfl⟩
  · unfold fed
    cases hline : interpret line with
    | error cause => exact .inr (.skip cause)
    | ok ss =>
      have hbegins : (splitName line).1 <+: line := ⟨_, append_splitName line⟩
      rw [interpret, if_neg hcomment] at hline
      dsimp only at hline
      unfold argumentsIn at hline
      split at hline
      · rcases acts_of_perform hbegins hline with ⟨hsetup, hss⟩ | hacts
        · exact .inl ⟨(isSetup_splitName_iff hcomment).1 hsetup, hss⟩
        · exact .inr hacts
      · cases hline

/-- Nothing else is fed for a setup line. -/
theorem fed_of_isSetupLine {line : List Char} (h : IsSetupLine line) : fed line = [.setup] := by
  by_cases hcomment : line.head? = some ';'
  · obtain ⟨text, rfl⟩ := List.head?_eq_some_iff.1 hcomment
    rfl
  · rw [fed, interpret_of_isSetup hcomment ((isSetup_splitName_iff hcomment).2 h)]

/-- The steps that are fed for a line, wherever it stands in a program. -/
structure Feeds (line : List Char) (ss : List Step) : Prop where
  /-- Between what is fed for the lines before and after it. -/
  events : ∀ (program : List Char) (before after : List Line) (start : Nat),
    lines program = before ++ ⟨line, start⟩ :: after →
      Language.epl.events program = (before.flatMap fun l => l.events (interpret l.text)) ++
        ss.map (.step · ⟨start, start + Text.byteLength line⟩) ++ after.flatMap fun l => l.events (interpret l.text)
  /-- In a program of this line alone. -/
  alone : Language.epl.events line = ss.map (.step · ⟨0, Text.byteLength line⟩)
  /-- It is accepted as a setup line exactly if it is one. -/
  setup_iff : ss = [.setup] ↔ IsSetupLine line
  /-- Any other line draws, declares a side of the page or is skipped. -/
  acts : ¬IsSetupLine line → Acts line ss

/-- **EPL2 setup lines are accepted exactly in their forms**, and any other line acts by its name or is skipped. -/
theorem feeds_fed {line : List Char} (h : IsLine line) : Feeds line (fed line) := by
  constructor
  case events =>
    intro program before after start hlines
    rw [Language.events, hlines, List.flatMap_append, List.flatMap_cons, events_fed ⟨line, start⟩, List.append_assoc]
    rfl
  case alone =>
    rw [Language.events, lines_of_isLine h, List.flatMap_singleton, events_fed, Line.span, Nat.zero_add]
  case setup_iff =>
    refine ⟨fun hsetup => ?_, fed_of_isSetupLine⟩
    rcases fed_cases line with ⟨hline, -⟩ | hacts
    · exact hline
    · rw [hsetup] at hacts
      cases hacts
  case acts =>
    intro hnot
    exact (fed_cases line).resolve_left fun hsetup => hnot hsetup.1

/-- A text that begins like a setup command is skipped. -/
theorem feeds_fed_of_text :
    let line := "Print me please".toList
    IsLine line ∧ Feeds line [.skip (.unrecognized "Print me please")] := by
  intro line
  have hline : IsLine line := by decide +kernel
  have hfed : fed line = [.skip (.unrecognized "Print me please")] := by decide +kernel
  rw [← hfed]
  exact ⟨hline, feeds_fed hline⟩

end ThermalLabel.Epl

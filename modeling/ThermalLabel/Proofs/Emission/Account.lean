import ThermalLabel.Proofs.Epl.RoundTrip
import ThermalLabel.Proofs.Stacking
import ThermalLabel.Proofs.Tspl.RoundTrip
import ThermalLabel.Proofs.Zpl.RoundTrip

/-!
# The account of a written program

No language draws images, and EPL2 draws no QR codes (`Language.unsupported?`). Whatever contents and font names hold,
neither the line of an element nor a line around the elements breaks (`lineFeed_not_mem_line?`,
`lineFeed_not_mem_frame`). **So a program has one line for each element that its language can express, each other
element is reported, and nothing else depends on these** (`emit_accounts`).
-/

namespace ThermalLabel

/-! ## Elements that a language cannot express -/

namespace Language

/-- Why a language has no command for a kind of element, if it has none. -/
def unsupported? : Language → ElementKind → Option Unsupported
  | _, .image => some .image
  | .epl, .qrCode _ => some .qrCode
  | _, _ => none

/-- Can the language express the element? -/
def expresses (l : Language) (e : Element) : Bool := (l.unsupported? e.kind).isNone

/-- The report on an element left out, which names its id and kind. -/
def leftOut (l : Language) (e : Element) (why : Unsupported) : Diagnostic where
  id := "LBL2001"
  severity := .info
  message := e.kind.name ++ " element " ++ toString e.id ++ " skipped: " ++ why.message
  context := some [("element", toString e.id), ("kind", e.kind.name), ("language", l.id)]

/-- The reports on an element. -/
def reports (l : Language) (e : Element) : List Diagnostic := (l.notes e).map Note.diagnostic

variable {l : Language} {e : Element}

/-- An element is drawn unless it cannot be expressed. -/
theorem draw_cases (l : Language) (e : Element) :
    (l.unsupported? e.kind = none ∧ ∃ d, l.draw e = .ok d) ∨
      ∃ why, l.unsupported? e.kind = some why ∧ l.draw e = .error why := by
  obtain ⟨id, position, size, rotation, zOrder, content, kind⟩ := e
  cases l <;> cases kind <;> first | exact .inl ⟨rfl, _, rfl⟩ | exact .inr ⟨_, rfl, rfl⟩

theorem isSome_line? (l : Language) (e : Element) : (l.line? e).isSome = l.expresses e := by
  rcases draw_cases l e with ⟨hnone, d, hd⟩ | ⟨why, hwhy, hd⟩
  · simp only [line?, hd, expresses, hnone, Option.isSome_some, Option.isNone_none]
  · simp only [line?, hd, expresses, hwhy, Option.isSome_none, Option.isNone_some]

/-- A drawn element is reported only for what is approximated. -/
theorem id_of_mem_reports (h : l.unsupported? e.kind = none) {d : Diagnostic} (hd : d ∈ l.reports e) :
    d.id = "LBL2002" := by
  rcases draw_cases l e with ⟨-, drawn, hdrawn⟩ | ⟨why, hwhy, -⟩
  · simp only [reports, notes, hdrawn, List.map_map, List.mem_map] at hd
    obtain ⟨a, -, rfl⟩ := hd
    rfl
  · rw [h] at hwhy
    cases hwhy

/-- An element that cannot be expressed is reported as left out, and in no other way. -/
theorem reports_of_unsupported {why : Unsupported} (h : l.unsupported? e.kind = some why) :
    l.reports e = [l.leftOut e why] := by
  rcases draw_cases l e with ⟨hnone, -⟩ | ⟨why', hwhy, hd⟩
  · rw [h] at hnone
    cases hnone
  · obtain rfl : why = why' := Option.some.inj (h.symm.trans hwhy)
    simp only [reports, notes, hd]
    rfl

end Language

/-- The reports with an identifier. -/
def Emitted.reported (written : Emitted) (id : String) : List Diagnostic := written.diagnostics.filter (·.id = id)

section Reports

variable (l : Language)

theorem diagnostics_emit (stock : Stock) (es : List Element) :
    (emit l stock es).diagnostics = (stacked es).flatMap l.reports := List.map_flatMap

/-- The reports of elements left out, in the order of the elements. -/
theorem filter_unsupported (es : List Element) : (es.flatMap l.reports).filter (·.id = "LBL2001") =
    es.filterMap fun e => (l.unsupported? e.kind).map (l.leftOut e) := by
  induction es with
  | nil => rfl
  | cons e es ih =>
    rw [List.flatMap_cons, List.filter_append, ih, List.filterMap_cons]
    cases h : l.unsupported? e.kind with
    | none =>
      have hnone : (l.reports e).filter (·.id = "LBL2001") = [] := by
        refine List.filter_eq_nil_iff.2 fun d hd => ?_
        rw [Language.id_of_mem_reports h hd]
        decide
      rw [hnone]
      rfl
    | some why =>
      rw [Language.reports_of_unsupported h]
      rfl

/-- The reports of approximations are those on the elements that can be expressed. -/
theorem filter_lossy (es : List Element) : (es.flatMap l.reports).filter (·.id = "LBL2002") =
    (es.filter l.expresses).flatMap l.reports := by
  induction es with
  | nil => rfl
  | cons e es ih =>
    rw [List.flatMap_cons, List.filter_append, ih, List.filter_cons, Language.expresses]
    cases h : l.unsupported? e.kind with
    | none =>
      have hall : (l.reports e).filter (·.id = "LBL2002") = l.reports e :=
        List.filter_eq_self.2 fun d hd => decide_eq_true (Language.id_of_mem_reports h hd)
      rw [hall]
      rfl
    | some why =>
      rw [Language.reports_of_unsupported h]
      rfl

end Reports

/-! ## Lines that do not break -/

/-- A written command holds no line break. -/
theorem Zpl.isLineBreak_of_mem_text {c : Zpl.Command} (h : c.Writable) : ∀ x ∈ c.text, Zpl.isLineBreak x = false := by
  have hbreak : ∀ {x}, Zpl.isBoundary x = false → Zpl.isLineBreak x = false := fun hx => (Bool.or_eq_false_iff.1 hx).2
  intro x hx
  rcases List.mem_cons.1 hx with rfl | hx
  · cases c.leader <;> decide
  · rcases List.mem_append.1 hx with hhead | hbody
    · exact hbreak (Zpl.isValueChar_of_isHeadChar (Zpl.isHeadChar_of_mem h.head x hhead)).2.2.2
    · exact hbreak (h.body x hbody)

theorem Zpl.lineFeed_not_mem_text {c : Zpl.Command} (h : c.Writable) : '\n' ∉ c.text := fun hm =>
  absurd (Zpl.isLineBreak_of_mem_text h _ hm) (by decide)

/-- What is written of an element is related to something that is kept of it. -/
theorem exists_of_rel_some {α β : Type} {R : α → β → Prop} {a : α} {kept : Option β}
    (h : Option.Rel R (some a) kept) : ∃ b, R a b := by
  cases h with
  | some hab => exact ⟨_, hab⟩

/-- The line of an element in ZPL is a line of written commands. -/
theorem Zpl.isWrittenLine_of_line? {e : Element} {line : List Char} (h : Language.zpl.line? e = some line) :
    IsWrittenLine line := by
  have hdraws := drawsCommands_kept e
  rw [line?_eq, Option.map_eq_some_iff] at h
  obtain ⟨cs, hcs, rfl⟩ := h
  rw [hcs] at hdraws
  obtain ⟨k, hline, -⟩ := exists_of_rel_some hdraws
  exact ⟨cs, rfl, hline⟩

/-- **No content breaks the line of its element.** -/
theorem lineFeed_not_mem_line? {l : Language} {e : Element} {line : List Char} (h : l.line? e = some line) :
    '\n' ∉ line := by
  cases l with
  | zpl =>
    obtain ⟨cs, rfl, hline⟩ := Zpl.isWrittenLine_of_line? h
    intro hm
    obtain ⟨c, hc, hm⟩ := List.mem_flatMap.1 hm
    exact Zpl.lineFeed_not_mem_text (hline.1 c hc) hm
  | epl =>
    obtain ⟨k, hline, -⟩ := exists_of_rel_some (h ▸ Epl.drawsLine_kept e)
    exact hline.2
  | tspl =>
    obtain ⟨k, hline, -⟩ := exists_of_rel_some (h ▸ Tspl.drawsLine_kept e)
    exact hline.2

theorem lineFeed_not_mem_frame (l : Language) (stock : Stock) :
    ∀ line ∈ l.header stock ++ l.footer, '\n' ∉ line := by
  cases l with
  | zpl =>
    intro line hline
    rcases List.mem_append.1 hline with hline | hline
    · obtain ⟨c, hc, rfl⟩ := List.mem_map.1 hline
      exact Zpl.lineFeed_not_mem_text (Zpl.writable_header stock c hc).1
    · obtain ⟨c, hc, rfl⟩ := List.mem_map.1 hline
      exact Zpl.lineFeed_not_mem_text (Zpl.writable_footer c hc).1
  | epl => exact fun line hline => (Epl.isLine_frame stock line hline).2
  | tspl => exact fun line hline => (Tspl.isLine_frame stock line hline).2

theorem count_unlines : ∀ {ls : List (List Char)}, (∀ l ∈ ls, '\n' ∉ l) → (unlines ls).count '\n' = ls.length
  | [], _ => rfl
  | l :: ls, h => by
    rw [Zpl.unlines_cons, List.count_append, List.count_append, List.count_eq_zero.2 (h l List.mem_cons_self),
      count_unlines fun x hx => h x (List.mem_cons_of_mem _ hx), List.length_cons]
    simp [Nat.add_comm]

/-! ## Accounts -/

/-- The number of lines around the elements. -/
def Language.frameLines : Language → Nat
  | .zpl => 7
  | .epl => 4
  | .tspl => 5

/-- What a program written of elements accounts for. -/
structure Emitted.Accounts (written : Emitted) (l : Language) (stock : Stock) (es : List Element) : Prop where
  total : written.emitted + written.skipped = es.length
  skipped : written.skipped = es.countP fun e => (l.unsupported? e.kind).isSome
  /-- Each element that is skipped is reported, in stacking order. -/
  unsupported : written.reported "LBL2001" =
    (stacked es).filterMap fun e => (l.unsupported? e.kind).map (l.leftOut e)
  reports : (written.reported "LBL2001").length = written.skipped
  /-- Line after line, the program is its header, the lines of its elements in stacking order, and its footer. -/
  lines : Text.splitOn '\n' written.program.toList =
    l.header stock ++ (stacked es).filterMap l.line? ++ l.footer ++ [[]]
  lineFeeds : written.program.toList.count '\n' = l.frameLines + written.emitted
  ends : written.program.toList.getLast? = some '\n'
  /-- Elements that are skipped leave no other trace. -/
  program_filter : (emit l stock (es.filter l.expresses)).program = written.program
  emitted_filter : (emit l stock (es.filter l.expresses)).emitted = written.emitted
  lossy_filter : (emit l stock (es.filter l.expresses)).reported "LBL2002" = written.reported "LBL2002"

section Accounts

variable (l : Language) (stock : Stock) (es : List Element)

theorem skipped_emit : (emit l stock es).skipped = es.countP fun e => (l.unsupported? e.kind).isSome := by
  have hcount : ∀ e, (l.line? e).isNone = (l.unsupported? e.kind).isSome := by
    intro e
    rw [← Option.not_isSome, Language.isSome_line?, Language.expresses, Option.not_isNone]
  simp only [emit, hcount]
  exact (perm_stacked es).countP_eq _

theorem emitted_add_skipped : (emit l stock es).emitted + (emit l stock es).skipped = es.length := by
  have hemitted : (emit l stock es).emitted = (stacked es).countP fun e => (l.line? e).isSome :=
    List.length_filterMap_eq_countP
  have hskipped : (emit l stock es).skipped = (stacked es).countP fun e => decide ¬(l.line? e).isSome = true := by
    simp only [emit]
    congr 1
    funext e
    cases l.line? e <;> rfl
  rw [hemitted, hskipped, ← List.length_eq_countP_add_countP, (perm_stacked es).length_eq]

theorem length_frame : (l.header stock ++ l.footer).length = l.frameLines := by
  cases l <;> rfl

/-- No line of a program breaks. -/
theorem lineFeed_not_mem_lines :
    ∀ line ∈ l.header stock ++ (stacked es).filterMap l.line? ++ l.footer, '\n' ∉ line := by
  have hframe := lineFeed_not_mem_frame l stock
  rw [List.forall_mem_append] at hframe
  refine List.forall_mem_append.2 ⟨List.forall_mem_append.2 ⟨hframe.1, fun line hline => ?_⟩, hframe.2⟩
  obtain ⟨e, -, he⟩ := List.mem_filterMap.1 hline
  exact lineFeed_not_mem_line? he

theorem filterMap_line?_filter :
    (stacked (es.filter l.expresses)).filterMap l.line? = (stacked es).filterMap l.line? := by
  rw [stacked_filter, List.filterMap_filter]
  refine List.filterMap_congr fun e _ => ?_
  rw [← Language.isSome_line?]
  cases l.line? e <;> rfl

/-- **A program has one line for each element that can be expressed; each other is reported.** -/
theorem emit_accounts : (emit l stock es).Accounts l stock es where
  total := emitted_add_skipped l stock es
  skipped := skipped_emit l stock es
  unsupported := by
    rw [Emitted.reported, diagnostics_emit, filter_unsupported]
  reports := by
    rw [Emitted.reported, diagnostics_emit, filter_unsupported, skipped_emit, List.length_filterMap_eq_countP]
    simp only [Option.isSome_map]
    exact (perm_stacked es).countP_eq _
  lines := by
    rw [emit, String.toList_ofList, splitOn_unlines (lineFeed_not_mem_lines l stock es)]
  lineFeeds := by
    have hframe := length_frame l stock
    rw [List.length_append] at hframe
    simp only [emit, String.toList_ofList]
    rw [count_unlines (lineFeed_not_mem_lines l stock es), List.length_append, List.length_append]
    omega
  ends := by
    simp only [emit, String.toList_ofList, Zpl.unlines_append]
    rw [List.getLast?_append]
    cases l <;> rfl
  program_filter := by
    simp only [emit, filterMap_line?_filter]
  emitted_filter := by
    simp only [emit, filterMap_line?_filter]
  lossy_filter := by
    rw [Emitted.reported, Emitted.reported, diagnostics_emit, diagnostics_emit, filter_lossy, filter_lossy,
      stacked_filter, List.filter_filter]
    simp only [Bool.and_self]

end Accounts

end ThermalLabel

import ThermalLabel.Proofs.Recovery.Placement

/-!
# Fields and their origins

A content command is drawn at the position that waits for it, which is not always that of the nearest origin command in
front of it.

* A command sets a position only if it is an origin command, and an origin command does so or is skipped
  (`Command.isOrigin_of_position`, `Command.step_of_isOrigin`); likewise for commands that draw.
* So the position that waits is that of the nearest origin command, unless this one was skipped: it leaves the position
  of the field before it, if no content has used it up (`nearest_of_waiting`).
* **What becomes of content commands** in any program, and which of them are drawn at a position that is not their own:
  `originated_recover`.
-/

namespace ThermalLabel.Zpl

/-! ## What commands are for -/

/-- Is it one of the two commands that set the position of a field? -/
def Command.isOrigin (c : Command) : Bool := c.code = "^FO".toList || c.code = "^FT".toList

/-- Is it one of the three commands that draw? -/
def Command.isContent (c : Command) : Bool :=
  c.code = "^FD".toList || c.code = "^FV".toList || c.code = "^GB".toList

/-- The steps of commands for a purpose that are not skipped. -/
def Verb.Takes : Verb → Step → Prop
  | .origin, s => ∃ place, s = .position place
  | .data, s | .graphic, s => ∃ c, s = .content c
  | .pageWidth, s | .pageLength, s => ∃ width height, s = .page width height
  | _, s => s = .setup

/-- **A command takes a step for its purpose**, or is malformed. -/
theorem takes_perform (f : Format) (c : Command) (v : Verb) : Yields (fun o => v.Takes o.step) (f.perform c v) := by
  cases v with
  | origin =>
    refine (Arguments.careful_wordOr _ 0 "x" 0).bind fun x _ => ?_
    exact (Arguments.careful_wordOr _ 1 "y" 0).bind fun y _ => ⟨_, rfl⟩
  | separator | comment | setup => rfl
  | data => exact ⟨_, rfl⟩
  | hexIndicator => exact (careful_indicatorArg _).bind fun i _ => rfl
  | font => exact (careful_font f c).bind fun font _ => rfl
  | defaultFont => exact (careful_withFont _ f.defaults).bind fun d _ => rfl
  | defaultRotation => exact (careful_rotationArg? _).bind fun r _ => rfl
  | block =>
    refine (Arguments.careful_wordOr _ 0 "width" 0).bind fun width _ => ?_
    exact (careful_alignmentArg _).bind fun alignment _ => rfl
  | barDefaults => exact (careful_withBars _ f.defaults).bind fun d _ => rfl
  | barcode s => exact (careful_barcode _ f s).bind fun symbol _ => rfl
  | qrCode =>
    refine (careful_moduleSizeArg _).bind fun size _ => ?_
    exact (careful_levelArg? _).bind fun level _ => rfl
  | graphic => exact (yields_graphicArg _).bind fun content _ => ⟨_, rfl⟩
  | pageWidth => exact (Arguments.careful_word _ 0 "width").bind fun width _ => ⟨_, _, rfl⟩
  | pageLength => exact (Arguments.careful_word _ 0 "length").bind fun length _ => ⟨_, _, rfl⟩

/-- A command is skipped, or takes a step for its purpose. -/
theorem step_obey (f : Format) (c : Command) : (∃ cause, (f.obey c).step = .skip cause) ∨
    ∃ v, Verb.of? c.leader c.head = some v ∧ v.Takes (f.obey c).step := by
  unfold Format.obey
  split
  · exact .inl ⟨_, rfl⟩
  · rename_i v hv
    have htakes := takes_perform f c v
    split
    · rename_i o ho
      rw [ho] at htakes
      exact .inr ⟨v, hv, htakes⟩
    · exact .inl ⟨_, rfl⟩

/-- A command that moves or draws elements is found in the table of heads. -/
theorem mem_caretVerbs {leader : Leader} {head : List Char} {v : Verb} (h : Verb.of? leader head = some v)
    (hv : v = .origin ∨ v = .data ∨ v = .graphic) :
    leader = .caret ∧ (String.ofList head, v) ∈ caretVerbs := by
  unfold Verb.of? at h
  cases leader with
  | tilde =>
    dsimp only at h
    split at h
    · obtain rfl := Option.some.inj h
      simp at hv
    · cases h
  | caret =>
    refine ⟨rfl, ?_⟩
    rcases Option.or_eq_some_iff.1 h with h | ⟨-, h⟩
    · obtain ⟨before, after, hsplit, -⟩ := List.lookup_eq_some_iff.1 h
      rw [hsplit]
      exact List.mem_append_right _ List.mem_cons_self
    · obtain ⟨s, -, hs⟩ := Option.map_eq_some_iff.1 h
      subst hs
      simp at hv

theorem Command.code_of_head {c : Command} {head : String} (hl : c.leader = .caret) (h : String.ofList c.head = head) :
    c.code = '^' :: head.toList := by
  rw [Command.code, hl, ← h, String.toList_ofList]
  rfl

theorem Command.isOrigin_of_verb {c : Command} (h : Verb.of? c.leader c.head = some .origin) : c.isOrigin := by
  obtain ⟨hl, hmem⟩ := mem_caretVerbs h (.inl rfl)
  have hheads : ∀ p ∈ caretVerbs, p.2 = .origin → p.1 = "FO" ∨ p.1 = "FT" := by decide
  rcases hheads _ hmem rfl with h | h
  · simp [isOrigin, code_of_head hl h]
  · simp [isOrigin, code_of_head hl h]

theorem Command.isContent_of_verb {c : Command} {v : Verb} (h : Verb.of? c.leader c.head = some v)
    (hv : v = .data ∨ v = .graphic) : c.isContent := by
  obtain ⟨hl, hmem⟩ := mem_caretVerbs h (.inr hv)
  have hheads : ∀ p ∈ caretVerbs, p.2 = .data ∨ p.2 = .graphic → p.1 = "FD" ∨ p.1 = "FV" ∨ p.1 = "GB" := by decide
  rcases hheads _ hmem hv with h | h | h
  · simp [isContent, code_of_head hl h]
  · simp [isContent, code_of_head hl h]
  · simp [isContent, code_of_head hl h]

/-- What a caret command is for is told by its code. -/
theorem Command.verb_of_code {c : Command} {head : List Char} (h : c.code = '^' :: head) :
    Verb.of? c.leader c.head = Verb.of? .caret head := by
  obtain ⟨leader, head', body⟩ := c
  obtain ⟨hleader, hhead⟩ := List.cons.inj h
  obtain rfl : head' = head := hhead
  cases leader with
  | caret => rfl
  | tilde =>
    have hne : '~' ≠ '^' := by decide
    exact absurd hleader hne

theorem Command.verb_of_isOrigin {c : Command} (h : c.isOrigin) : Verb.of? c.leader c.head = some .origin := by
  rw [isOrigin, Bool.or_eq_true, decide_eq_true_iff, decide_eq_true_iff] at h
  rcases h with h | h
  · rw [verb_of_code h]
    decide +kernel
  · rw [verb_of_code h]
    decide +kernel

theorem Command.verb_of_isContent {c : Command} (h : c.isContent) :
    Verb.of? c.leader c.head = some .data ∨ Verb.of? c.leader c.head = some .graphic := by
  rw [isContent, Bool.or_eq_true, Bool.or_eq_true, decide_eq_true_iff, decide_eq_true_iff, decide_eq_true_iff] at h
  rcases h with (h | h) | h
  · rw [verb_of_code h]
    decide +kernel
  · rw [verb_of_code h]
    decide +kernel
  · rw [verb_of_code h]
    decide +kernel

/-- A command that sets a position is an origin command. -/
theorem Command.isOrigin_of_position {f : Format} {c : Command} {place : Point}
    (h : (f.obey c).step = .position place) : c.isOrigin := by
  rcases step_obey f c with ⟨cause, hskip⟩ | ⟨v, hv, htakes⟩
  · rw [h] at hskip
    cases hskip
  · rw [h] at htakes
    cases v with
    | origin => exact isOrigin_of_verb hv
    | data | graphic =>
      obtain ⟨_, hother⟩ := htakes
      cases hother
    | pageWidth | pageLength =>
      obtain ⟨_, _, hother⟩ := htakes
      cases hother
    | separator | comment | hexIndicator | font | defaultFont | defaultRotation | block | barDefaults | barcode s
    | qrCode | setup => cases htakes

/-- An origin command sets a position, unless it is skipped. -/
theorem Command.step_of_isOrigin {c : Command} (h : c.isOrigin) (f : Format) :
    (∃ place, (f.obey c).step = .position place) ∨ ∃ cause, (f.obey c).step = .skip cause := by
  rcases step_obey f c with hskip | ⟨v, hv, htakes⟩
  · exact .inr hskip
  · rw [verb_of_isOrigin h] at hv
    obtain rfl := Option.some.inj hv
    exact .inl htakes

/-- A command that draws is a content command. -/
theorem Command.isContent_of_content {f : Format} {c : Command} {content : Content}
    (h : (f.obey c).step = .content content) : c.isContent := by
  rcases step_obey f c with ⟨cause, hskip⟩ | ⟨v, hv, htakes⟩
  · rw [h] at hskip
    cases hskip
  · rw [h] at htakes
    cases v with
    | data => exact isContent_of_verb hv (.inl rfl)
    | graphic => exact isContent_of_verb hv (.inr rfl)
    | origin =>
      obtain ⟨_, hother⟩ := htakes
      cases hother
    | pageWidth | pageLength =>
      obtain ⟨_, _, hother⟩ := htakes
      cases hother
    | separator | comment | hexIndicator | font | defaultFont | defaultRotation | block | barDefaults | barcode s
    | qrCode | setup => cases htakes

/-- A content command draws, unless it is skipped. -/
theorem Command.step_of_isContent {c : Command} (h : c.isContent) (f : Format) :
    (∃ content, (f.obey c).step = .content content) ∨ ∃ cause, (f.obey c).step = .skip cause := by
  rcases step_obey f c with hskip | ⟨v, hv, htakes⟩
  · exact .inr hskip
  · rcases verb_of_isContent h with hverb | hverb
    · rw [hverb] at hv
      obtain rfl := Option.some.inj hv
      exact .inl htakes
    · rw [hverb] at hv
      obtain rfl := Option.some.inj hv
      exact .inl htakes

/-! ## Programs as obeyed -/

/-- A segment of a program with the step that it is. -/
structure Act where
  segment : Segment
  step : Step
  deriving DecidableEq, Repr

/-- The step that a segment is in a state. -/
def Segment.step (f : Format) : Segment → Step
  | .bare leader _ => .skip (.unrecognized (String.ofList [leader]))
  | .stray text _ => .skip (.stray (String.ofList text))
  | .command c _ => (f.obey c).step

/-- The segments with their steps, each in the state that those before it left. -/
def actsFrom (f : Format) : List Segment → List Act
  | [] => []
  | s :: ss => ⟨s, s.step f⟩ :: actsFrom (s.events f).2 ss

/-- The segments of a program with their steps. -/
def acts (program : List Char) : List Act := actsFrom {} (segments (tokens 0 program))

namespace Act

/-- The event of a segment, without notes about its data. -/
def event (a : Act) : Event := .step a.step a.segment.span

/-- Is the segment a command that sets the position of a field, or should? -/
def isOrigin (a : Act) : Bool :=
  match a.segment with
  | .command c _ => c.isOrigin
  | _ => false

/-- Is the segment a content command? -/
def isContent (a : Act) : Bool :=
  match a.segment with
  | .command c _ => c.isContent
  | _ => false

/-- Only origin commands set a position, only content commands draw, and unless skipped they do nothing else. -/
structure Obeyed (a : Act) : Prop where
  isOrigin : ∀ place, a.step = .position place → a.isOrigin
  origin : a.isOrigin → (∃ place, a.step = .position place) ∨ ∃ cause, a.step = .skip cause
  isContent : ∀ c, a.step = .content c → a.isContent
  content : a.isContent → (∃ c, a.step = .content c) ∨ ∃ cause, a.step = .skip cause

theorem Obeyed.content_iff {a : Act} (h : a.Obeyed) :
    (∃ c, a.step = .content c) ↔ a.isContent ∧ ∀ cause, a.step ≠ .skip cause := by
  constructor
  · rintro ⟨c, hc⟩
    refine ⟨h.isContent c hc, fun cause hskip => ?_⟩
    rw [hc] at hskip
    cases hskip
  · rintro ⟨hcontent, hskip⟩
    exact (h.content hcontent).resolve_right fun ⟨cause, hcause⟩ => hskip cause hcause

end Act

theorem Act.place?_event {a : Act} {place : Point} : a.event.place? = some place ↔ a.step = .position place := by
  obtain ⟨segment, step⟩ := a
  cases step <;> simp [event]

theorem obeyed_step (f : Format) (s : Segment) : Act.Obeyed ⟨s, s.step f⟩ := by
  cases s with
  | bare leader span | stray text span =>
    refine ⟨fun place h => ?_, fun h => ?_, fun c h => ?_, fun h => ?_⟩
    · cases h
    · cases h
    · cases h
    · cases h
  | command c span =>
    exact {
      isOrigin := fun _ h => Command.isOrigin_of_position h
      origin := fun h => Command.step_of_isOrigin h f
      isContent := fun _ h => Command.isContent_of_content h
      content := fun h => Command.step_of_isContent h f }

theorem obeyed_actsFrom : ∀ (f : Format) (ss : List Segment), ∀ a ∈ actsFrom f ss, a.Obeyed
  | _, [], _, ha => (List.not_mem_nil ha).elim
  | f, s :: ss, a, ha => by
    rcases List.mem_cons.1 ha with rfl | ha
    · exact obeyed_step f s
    · exact obeyed_actsFrom _ ss a ha

/-- Notes do not move elements. -/
theorem filter_moves_segment (f : Format) (s : Segment) :
    (s.events f).1.filter Event.moves = [Act.event ⟨s, s.step f⟩].filter Event.moves := by
  cases s with
  | bare leader span | stray text span => rfl
  | command c span =>
    have hnotes : ((f.obey c).notes.map fun cause => Event.note ⟨cause, span⟩).filter Event.moves = [] := by
      refine List.filter_eq_nil_iff.2 fun e he => ?_
      obtain ⟨cause, -, rfl⟩ := List.mem_map.1 he
      exact Bool.false_ne_true
    rw [Segment.events, List.filter_append, hnotes]
    rfl

theorem filter_moves_events : ∀ (f : Format) (ss : List Segment),
    (events f ss).filter Event.moves = ((actsFrom f ss).map Act.event).filter Event.moves
  | _, [] => rfl
  | f, s :: ss => by
    rw [events, actsFrom, List.filter_append, filter_moves_segment, filter_moves_events, ← List.filter_append]
    rfl

theorem placings_events (program : List Char) :
    placings (Language.zpl.events program) = placings ((acts program).map Act.event) := by
  rw [← placings_filter_moves, Language.events, filter_moves_events, placings_filter_moves]
  rfl

/-! ## The nearest origin -/

/-- The step of the last origin command among some commands. -/
def nearest (as : List Act) : Option Step := ((as.filter Act.isOrigin).getLast?).map Act.step

theorem nearest_concat (as : List Act) (a : Act) :
    nearest (as ++ [a]) = if a.isOrigin then some a.step else nearest as := by
  rw [nearest, List.filter_append]
  cases ha : a.isOrigin with
  | true =>
    rw [List.filter_cons_of_pos ha, List.filter_nil, List.getLast?_concat]
    rfl
  | false =>
    rw [List.filter_cons_of_neg (ne_true_of_eq_false ha), List.filter_nil, List.append_nil]
    rfl

/-- **The position that waits** is that of the nearest origin command, unless this one was skipped. -/
theorem nearest_of_waiting {as : List Act} (has : ∀ a ∈ as, a.Obeyed) {place : Point}
    (h : waiting (as.map Act.event) = some place) :
    nearest as = some (.position place) ∨ ∃ cause, nearest as = some (.skip cause) := by
  induction as using List.reverseRecOn with
  | nil => cases h
  | append_singleton as a ih =>
    have ha : a.Obeyed := has a (List.mem_append_right _ List.mem_cons_self)
    have ih := ih fun b hb => has b (List.mem_append_left _ hb)
    rw [List.map_append, List.map_singleton, waiting_concat, Act.event] at h
    rw [nearest_concat]
    cases hs : a.step with
    | content c => simp [hs] at h
    | position q =>
      obtain rfl : q = place := by simpa [hs] using h
      rw [if_pos (ha.isOrigin q hs)]
      exact .inl rfl
    | page width height | setup =>
      have hother : ¬ a.isOrigin := fun ho => by simpa [hs] using ha.origin ho
      rw [if_neg hother]
      exact ih (by simpa [hs] using h)
    | skip cause =>
      by_cases ho : a.isOrigin
      · rw [if_pos ho]
        exact .inr ⟨cause, rfl⟩
      · rw [if_neg ho]
        exact ih (by simpa [hs] using h)

/-! ## Content commands -/

/-- A content command that draws, and what stands before it. -/
structure Drawing where
  before : List Act
  command : Act
  content : Content

/-- The content commands of a program that draw, each with what stands before it. -/
def drawings (program : List Char) : List Drawing :=
  (withBefore (acts program)).filterMap fun (before, a) => a.event.content?.map (⟨before, a, ·⟩)

namespace Drawing

variable (d : Drawing)

/-- The position at which the content is drawn, if it is. -/
def place? : Option Point := waiting (d.before.map Act.event)

/-- What stands between the content before and this one. -/
def field : List Act := d.before.rtakeWhile fun a => a.event.content?.isNone

/-- Was the nearest origin command in front of the content skipped? -/
def isOrphan : Bool :=
  match nearest d.before with
  | some (.skip _) => true
  | _ => false

/-- Is the content drawn at a position that is not that of the nearest origin command? -/
def isStale : Bool := d.place?.any fun place => nearest d.before ≠ some (.position place)

/-- The content with the position that waits for it. -/
def placing : Placing := ⟨d.content, d.command.segment.span, d.place?⟩

end Drawing

/-- Content is placed in a program as its content commands say. -/
theorem placings_acts (program : List Char) :
    placings ((acts program).map Act.event) = (drawings program).map Drawing.placing := by
  rw [placings, withBefore_map, List.filterMap_map, drawings, List.map_filterMap]
  refine List.filterMap_congr fun (before, a) _ => ?_
  rw [Function.comp_apply, placingAfter_eq, Option.map_map]
  rfl

/-- What stands in front of a content command is obeyed. -/
theorem obeyed_of_mem_drawings {program : List Char} {d : Drawing} (h : d ∈ drawings program) :
    ∀ a ∈ d.before, a.Obeyed := by
  obtain ⟨⟨before, a⟩, hmem, hd⟩ := List.mem_filterMap.1 h
  obtain ⟨c, -, rfl⟩ := Option.map_eq_some_iff.1 hd
  obtain ⟨i, hi, hbefore⟩ := List.mem_mapIdx.1 hmem
  obtain ⟨rfl, rfl⟩ := Prod.mk.inj hbefore
  exact fun b hb => obeyed_actsFrom _ _ b (List.mem_of_mem_take hb)

namespace Drawing

variable {d : Drawing}

/-- A position waits iff an origin command between the content before and this one was not skipped. -/
theorem isSome_place?_iff : d.place?.isSome ↔ ∃ a ∈ d.field, ∃ place, a.step = .position place := by
  have hfield : sinceContent (d.before.map Act.event) = d.field.map Act.event := by
    rw [sinceContent, field, List.rtakeWhile, List.rtakeWhile, ← List.map_reverse, List.takeWhile_map,
      List.map_reverse]
    rfl
  rw [place?, isSome_waiting_iff, hfield]
  simp only [List.mem_map, exists_exists_and_eq_and, Option.isSome_iff_exists, Act.place?_event]

/-- **Content is drawn elsewhere** than its nearest origin command says exactly if this one was skipped where an earlier
one, not used up, was not. -/
theorem isStale_iff (h : ∀ a ∈ d.before, a.Obeyed) :
    d.isStale ↔ d.isOrphan ∧ ∃ a ∈ d.field, ∃ place, a.step = .position place := by
  rw [← isSome_place?_iff, isStale, isOrphan]
  cases hp : d.place? with
  | none => simp
  | some place =>
    rcases nearest_of_waiting h hp with hn | ⟨cause, hn⟩
    · simp [hn]
    · simp [hn]

end Drawing

/-- What becomes of the content commands of a program. -/
structure Originated (program : List Char) (r : Recovered) : Prop where
  /-- What draws are the content commands that are not malformed themselves. -/
  commands : ∀ a ∈ acts program, (∃ c, a.step = .content c) ↔ a.isContent ∧ ∀ cause, a.step ≠ .skip cause
  /-- The elements are their content, where a position waits for it. -/
  elements : r.elements = drawnElements ((drawings program).map Drawing.placing)
  /-- All others are reported as without a position. -/
  unplaced : r.diagnostics.filter (·.id = "LBL1103") =
    ((drawings program).filterMap fun d => d.placing.unplaced? .zpl).map Finding.diagnostic
  /-- An element is not at the position of its nearest origin command exactly if this command was skipped while the
  position of an earlier one, not skipped and not used up by content, still waited. -/
  stale : ∀ d ∈ drawings program, d.isStale ↔ d.isOrphan ∧ ∃ a ∈ d.field, ∃ place, a.step = .position place

/-- **Elements are where their fields say**, but for fields whose origin command is malformed. -/
theorem originated_recover (program : String) : Originated program.toList (ThermalLabel.recover .zpl program) := by
  have hplacings : placings (Language.zpl.events program.toList) = (drawings program.toList).map Drawing.placing := by
    rw [placings_events, placings_acts]
  have hassembly : Language.zpl.assembly program.toList = .ofEvents .zpl (Language.zpl.events program.toList) :=
    Assembly.foldl_feed .zpl _
  rw [recover_eq, hassembly]
  exact {
    commands := fun a ha => (obeyed_actsFrom _ _ a ha).content_iff
    elements := congrArg drawnElements hplacings
    unplaced := by
      have hnone : ∀ e ∈ Language.zpl.events program.toList, e.bringsUnplaced = false :=
        fun e he => (Language.zpl.accountable_events _ e he).bringsUnplaced_eq
      rw [filter_unplaced_finish .zpl _ hnone, hplacings, List.filterMap_map]
      rfl
    stale := fun d hd => Drawing.isStale_iff (obeyed_of_mem_drawings hd) }

/-- A field that draws nothing leaves its position to one whose own origin is malformed. -/
theorem stale_origin :
    let program := "^XA^FO5,6^FS^FO1x,20^A0N,20,20^FDlost^FS^XZ"
    let r := ThermalLabel.recover .zpl program
    (drawings program.toList).map (fun d => (d.isOrphan, d.isStale, d.place?)) = [(true, true, some ⟨5, 6⟩)] ∧
      r.elements.map (fun e => (e.content, e.position)) = [("lost", ⟨5, 6⟩)] ∧
      r.diagnostics.map Diagnostic.id = ["LBL1102"] := by
  decide +kernel

end ThermalLabel.Zpl

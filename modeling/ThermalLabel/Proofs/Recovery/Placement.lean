import Mathlib.Data.List.DropRight
import ThermalLabel.Proofs.Recovery.Report

/-!
# Content and its position

The assembly keeps one position and gives it to the next content. Said of the events alone: the position that *waits*
after some events is the last one set since the last content (`waiting`), and content is drawn at the position that
waits for it (`placings`).

* **One event** leads from what the events before it say to what they say with it (`Assembly.feed_ofEvents`), so a run
  leads to what its events say (`Assembly.foldl_feed`).
* Only positions and content move elements (`placings_filter_moves`), and content becomes an element or is reported
  (`length_placed_add_unplaced`).
* **The result of any events** has the placed content as its elements, a report for all other content, and the page
  declared last (`placements_assemble`).
-/

namespace ThermalLabel

/-! ## What an event holds -/

namespace Event

/-- The position that an event sets. -/
@[simp] def place? : Event → Option Point
  | .step (.position place) _ => some place
  | _ => none

/-- The content that an event draws. -/
@[simp] def content? : Event → Option Content
  | .step (.content c) _ => some c
  | _ => none

/-- The width of the page that an event declares. -/
@[simp] def width? : Event → Option UInt32
  | .step (.page width _) _ => width
  | _ => none

/-- The height of the page that an event declares. -/
@[simp] def height? : Event → Option UInt32
  | .step (.page _ height) _ => height
  | _ => none

/-- The finding that an event brings along. -/
@[simp] def finding? : Event → Option Finding
  | .step (.skip cause) span => some ⟨cause, span⟩
  | .note f => some f
  | _ => none

/-- Does the event skip something of its own? -/
@[simp] def isSkip : Event → Bool
  | .step (.skip _) _ => true
  | _ => false

/-- Does the event set a position or draw? -/
def moves (e : Event) : Bool := e.place?.isSome || e.content?.isSome

end Event

/-! ## Positions that wait -/

/-- The events since the last content. -/
def sinceContent (es : List Event) : List Event := es.rtakeWhile fun e => e.content?.isNone

/-- The position that waits for content after some events: the last one set since the last content. -/
def waiting (es : List Event) : Option Point := ((sinceContent es).filterMap Event.place?).getLast?

/-- Content uses up what waits, a position takes its place, and other events leave it. -/
theorem waiting_concat (es : List Event) (e : Event) :
    waiting (es ++ [e]) = if e.content?.isSome then none else e.place?.or (waiting es) := by
  rw [waiting, sinceContent, List.rtakeWhile_concat]
  cases e with
  | note f => simp [waiting, sinceContent]
  | step s span =>
    cases s with
    | content c => rfl
    | position place | page width height | setup | skip cause => simp [waiting, sinceContent]

/-- A position waits iff one was set since the last content. -/
theorem isSome_waiting_iff {es : List Event} : (waiting es).isSome ↔ ∃ e ∈ sinceContent es, e.place?.isSome := by
  rw [waiting, List.getLast?_isSome, ne_eq, List.filterMap_eq_nil_iff]
  simp only [not_forall, Option.isSome_iff_ne_none, exists_prop, ne_eq]

/-! ## Content among events -/

section WithBefore

variable {α β : Type}

/-- Each item of a list with the items before it. -/
def withBefore (xs : List α) : List (List α × α) := xs.mapIdx fun i x => (xs.take i, x)

theorem withBefore_concat (xs : List α) (x : α) : withBefore (xs ++ [x]) = withBefore xs ++ [(xs, x)] := by
  have hbefore : (xs.mapIdx fun i y => ((xs ++ [x]).take i, y)) = withBefore xs := by
    refine List.mapIdx_eq_mapIdx_iff.2 fun i hi => ?_
    rw [List.take_append_of_le_length (Nat.le_of_lt hi)]
  rw [withBefore, List.mapIdx_concat, hbefore, List.take_left]

theorem withBefore_map (g : α → β) (xs : List α) :
    withBefore (xs.map g) = (withBefore xs).map fun (before, x) => (before.map g, g x) := by
  refine List.ext_getElem (by simp [withBefore]) fun i h h' => ?_
  simp only [withBefore, List.getElem_mapIdx, List.getElem_map, List.map_take]

/-- What is read off each item and those before it, one item more included. -/
theorem filterMap_withBefore_concat (f : List α × α → Option β) (xs : List α) (x : α) :
    (withBefore (xs ++ [x])).filterMap f = (withBefore xs).filterMap f ++ (f (xs, x)).toList := by
  rw [withBefore_concat, List.filterMap_append]
  cases h : f (xs, x) <;> simp [h]

theorem getLast?_filterMap_concat (f : α → Option β) (xs : List α) (x : α) :
    ((xs ++ [x]).filterMap f).getLast? = (f x).or (xs.filterMap f).getLast? := by
  cases h : f x <;> simp [List.filterMap_append, h]

end WithBefore

/-- Content of a program, and the position that waits for it. -/
structure Placing where
  content : Content
  span : Span
  place? : Option Point
  deriving DecidableEq, Repr

/-- The content of an event after others. -/
@[simp] def placingAfter : List Event × Event → Option Placing
  | (before, .step (.content c) span) => some ⟨c, span, waiting before⟩
  | _ => none

/-- The content of events, in order. -/
def placings (es : List Event) : List Placing := (withBefore es).filterMap placingAfter

/-- Content for which a position waits, with this position. -/
def Placing.drawn? (p : Placing) : Option (Content × Point) := p.place?.map (p.content, ·)

/-- The elements that the placed ones among some content are. -/
def drawnElements (ps : List Placing) : List Element :=
  (ps.filterMap Placing.drawn?).mapIdx fun index d => d.1.element index d.2

/-- The finding of content for which no position waits. -/
def Placing.unplaced? (l : Language) (p : Placing) : Option Finding :=
  if p.place?.isNone then some ⟨.unplaced l, p.span⟩ else none

/-- The finding that an event leaves after others: the one it brings, or that no position waits for its content. -/
def findingAfter (l : Language) (x : List Event × Event) : Option Finding :=
  ((placingAfter x).bind (Placing.unplaced? l)).or x.2.finding?

theorem placings_concat (es : List Event) (e : Event) :
    placings (es ++ [e]) = placings es ++ (placingAfter (es, e)).toList :=
  filterMap_withBefore_concat _ es e

theorem drawnElements_concat (ps : List Placing) (p : Placing) : drawnElements (ps ++ [p]) =
    drawnElements ps ++ (p.place?.map (p.content.element (drawnElements ps).length)).toList := by
  obtain ⟨c, span, place?⟩ := p
  cases place? with
  | none => simp [drawnElements, Placing.drawn?, List.filterMap_append, List.filterMap_cons]
  | some place => simp [drawnElements, Placing.drawn?, List.filterMap_append]

/-! ## The assembly of events -/

namespace Assembly

/-- The assembly that events say. -/
def ofEvents (l : Language) (es : List Event) : Assembly where
  language := l
  position := waiting es
  elements := drawnElements (placings es)
  findings := (withBefore es).filterMap (findingAfter l)
  skipped := (placings es).countP (·.place?.isNone) + es.countP Event.isSkip
  pageWidth := (es.filterMap Event.width?).getLast?
  pageHeight := (es.filterMap Event.height?).getLast?

/-- **One event** leads from the events before it to those with it. -/
theorem feed_ofEvents (l : Language) (es : List Event) (e : Event) :
    (ofEvents l es).feed e = ofEvents l (es ++ [e]) := by
  have hafter : ofEvents l (es ++ [e]) = { ofEvents l es with
      position := if e.content?.isSome then none else e.place?.or (waiting es)
      elements := drawnElements (placings es ++ (placingAfter (es, e)).toList)
      findings := (ofEvents l es).findings ++ (findingAfter l (es, e)).toList
      skipped := (placings es ++ (placingAfter (es, e)).toList).countP (·.place?.isNone) +
        (es.countP Event.isSkip + [e].countP Event.isSkip)
      pageWidth := e.width?.or (ofEvents l es).pageWidth
      pageHeight := e.height?.or (ofEvents l es).pageHeight } := by
    simp only [ofEvents, waiting_concat, placings_concat, filterMap_withBefore_concat, List.countP_append,
      getLast?_filterMap_concat]
  rw [hafter]
  cases e with
  | note f => simp [feed, ofEvents, findingAfter]
  | step s span =>
    cases s with
    | position place | page width height | setup => simp [feed, ofEvents, findingAfter]
    | skip cause => simp [feed, skip, ofEvents, findingAfter, Nat.add_assoc]
    | content c =>
      cases hp : waiting es with
      | none =>
        simp [feed, draw, skip, ofEvents, hp, findingAfter, Placing.unplaced?, drawnElements_concat, Nat.add_right_comm]
      | some place => simp [feed, draw, ofEvents, hp, findingAfter, Placing.unplaced?, drawnElements_concat]

/-- **A run** leads to what its events say. -/
theorem foldl_feed (l : Language) (es : List Event) : es.foldl feed { language := l } = ofEvents l es := by
  induction es using List.reverseRecOn with
  | nil => rfl
  | append_singleton es e ih => rw [List.foldl_append, ih, List.foldl_cons, List.foldl_nil, feed_ofEvents]

end Assembly

/-! ## Only positions and content move elements -/

theorem Event.moves_eq_false {e : Event} : e.moves = false ↔ e.place? = none ∧ e.content? = none := by
  rw [moves, Bool.or_eq_false_iff, Option.isSome_eq_false_iff, Option.isSome_eq_false_iff, Option.isNone_iff_eq_none,
    Option.isNone_iff_eq_none]

/-- Content after other events is placed by the position that waits. -/
theorem placingAfter_eq (es : List Event) (e : Event) :
    placingAfter (es, e) = e.content?.map fun c => ⟨c, e.span, waiting es⟩ := by
  cases e with
  | note f => rfl
  | step s span => cases s <;> rfl

theorem waiting_filter_moves (es : List Event) : waiting (es.filter Event.moves) = waiting es := by
  induction es using List.reverseRecOn with
  | nil => rfl
  | append_singleton es e ih =>
    rw [List.filter_append, waiting_concat]
    cases hm : e.moves with
    | true => rw [List.filter_cons_of_pos hm, List.filter_nil, waiting_concat, ih]
    | false =>
      obtain ⟨hplace, hcontent⟩ := Event.moves_eq_false.1 hm
      rw [List.filter_cons_of_neg (ne_true_of_eq_false hm), List.filter_nil, List.append_nil, ih, hplace, hcontent]
      rfl

/-- **Content is placed alike** without the events that neither set a position nor draw. -/
theorem placings_filter_moves (es : List Event) : placings (es.filter Event.moves) = placings es := by
  induction es using List.reverseRecOn with
  | nil => rfl
  | append_singleton es e ih =>
    rw [List.filter_append, placings_concat, placingAfter_eq]
    cases hm : e.moves with
    | true =>
      rw [List.filter_cons_of_pos hm, List.filter_nil, placings_concat, placingAfter_eq, waiting_filter_moves, ih]
    | false =>
      rw [List.filter_cons_of_neg (ne_true_of_eq_false hm), List.filter_nil, List.append_nil, ih,
        (Event.moves_eq_false.1 hm).2]
      exact (List.append_nil _).symm

/-! ## Counting -/

/-- Is a finding reported under the code for content without a position? -/
def Finding.isUnplaced (f : Finding) : Bool := f.diagnostic.id = "LBL1103"

theorem Finding.isUnplaced_iff (f : Finding) : f.isUnplaced ↔ ∃ l, f.cause = .unplaced l := by
  obtain ⟨cause, span⟩ := f
  cases cause with
  | unrecognized command | stray text | malformed command field value reason | refused command why
  | undecodable command escape | unplaced l | nothing =>
    simp [isUnplaced, Finding.diagnostic, Cause.code, Code.id]

/-- An event that brings such a report itself. -/
def Event.bringsUnplaced (e : Event) : Bool := e.finding?.any Finding.isUnplaced

theorem length_placings (es : List Event) : (placings es).length = es.countP (·.content?.isSome) := by
  induction es using List.reverseRecOn with
  | nil => rfl
  | append_singleton es e ih =>
    rw [placings_concat, List.length_append, List.countP_append, ih, placingAfter_eq]
    simp only [List.countP_singleton]
    cases e.content? <;> rfl

theorem length_drawnElements (ps : List Placing) : (drawnElements ps).length = ps.countP (·.place?.isSome) := by
  rw [drawnElements, List.length_mapIdx, List.length_filterMap_eq_countP]
  simp only [Placing.drawn?, Option.isSome_map]

/-- An event without content leaves the finding that it brings. -/
theorem findingAfter_of_none {es : List Event} {e : Event} (h : placingAfter (es, e) = none) (l : Language) :
    findingAfter l (es, e) = e.finding? := by
  rw [findingAfter, h]
  rfl

/-- An event with content leaves at most the finding that no position waits, and brings none. -/
theorem findingAfter_of_some {es : List Event} {e : Event} {p : Placing} (h : placingAfter (es, e) = some p)
    (l : Language) : findingAfter l (es, e) = p.unplaced? l ∧ e.finding? = none := by
  have hnone : e.finding? = none := by
    rw [placingAfter_eq] at h
    cases e with
    | note f => cases h
    | step s span => cases s <;> first | rfl | cases h
  refine ⟨?_, hnone⟩
  rw [findingAfter, h, hnone]
  exact Option.or_none

theorem Placing.isSome_unplaced? (l : Language) (p : Placing) : (p.unplaced? l).isSome = p.place?.isNone := by
  unfold unplaced?
  cases p.place? <;> rfl

theorem Placing.isUnplaced_of_unplaced? {l : Language} {p : Placing} {f : Finding} (h : p.unplaced? l = some f) :
    f.isUnplaced := by
  unfold unplaced? at h
  split at h
  · obtain rfl := Option.some.inj h
    exact (Finding.isUnplaced_iff _).2 ⟨l, rfl⟩
  · cases h

/-- Reports of content without a position are those of an event's own content, or brought along. -/
theorem filter_findingAfter (l : Language) (es : List Event) (e : Event) :
    (findingAfter l (es, e)).toList.filter Finding.isUnplaced =
      (placingAfter (es, e)).toList.filterMap (Placing.unplaced? l) ++
        e.finding?.toList.filter Finding.isUnplaced := by
  cases h : placingAfter (es, e) with
  | none =>
    rw [findingAfter_of_none h]
    rfl
  | some p =>
    obtain ⟨hfinding, hnone⟩ := findingAfter_of_some h l
    rw [hfinding, hnone]
    cases hu : p.unplaced? l with
    | none => simp [hu]
    | some f => simp [hu, Placing.isUnplaced_of_unplaced? hu]

theorem length_filter_finding? (e : Event) :
    (e.finding?.toList.filter Finding.isUnplaced).length = if e.bringsUnplaced then 1 else 0 := by
  rw [Event.bringsUnplaced]
  cases e.finding? with
  | none => rfl
  | some f => cases hf : f.isUnplaced <;> simp [hf]

/-- The content reported as without a position is the one for which none waits. -/
theorem countP_findings (l : Language) (es : List Event) :
    ((withBefore es).filterMap (findingAfter l)).countP Finding.isUnplaced =
      (placings es).countP (·.place?.isNone) + es.countP Event.bringsUnplaced := by
  induction es using List.reverseRecOn with
  | nil => rfl
  | append_singleton es e ih =>
    have hstep : (findingAfter l (es, e)).toList.countP Finding.isUnplaced =
        (placingAfter (es, e)).toList.countP (·.place?.isNone) + [e].countP Event.bringsUnplaced := by
      rw [List.countP_eq_length_filter, filter_findingAfter, List.length_append, List.length_filterMap_eq_countP,
        length_filter_finding?, List.countP_singleton]
      simp only [Placing.isSome_unplaced?]
    rw [filterMap_withBefore_concat, placings_concat, List.countP_append, List.countP_append, List.countP_append, ih,
      hstep]
    omega

/-- Scanners bring no such report. -/
theorem Event.Accountable.bringsUnplaced_eq {e : Event} (h : e.Accountable) : e.bringsUnplaced = false := by
  cases e with
  | note f =>
    obtain ⟨cause, span⟩ := f
    cases cause with
    | undecodable command escape => rfl
    | unrecognized command | stray text | malformed command field value reason | refused command why | unplaced l
    | nothing => exact h.elim
  | step s span =>
    cases s with
    | position place | content c | page width height | setup => rfl
    | skip cause =>
      cases cause with
      | unrecognized command | stray text | malformed command field value reason | refused command why => rfl
      | undecodable command escape | unplaced l | nothing => exact h.elim

/-- Where no event brings such a report, those of the content without a position are all. -/
theorem filter_findings (l : Language) {es : List Event} (h : ∀ e ∈ es, e.bringsUnplaced = false) :
    ((withBefore es).filterMap (findingAfter l)).filter Finding.isUnplaced =
      (placings es).filterMap (Placing.unplaced? l) := by
  induction es using List.reverseRecOn with
  | nil => rfl
  | append_singleton es e ih =>
    have he : e.finding?.toList.filter Finding.isUnplaced = [] := by
      rw [← List.length_eq_zero_iff, length_filter_finding?, h e (List.mem_append_right _ List.mem_cons_self)]
      rfl
    rw [filterMap_withBefore_concat, placings_concat, List.filter_append, List.filterMap_append, filter_findingAfter,
      he, List.append_nil, ih fun e' he' => h e' (List.mem_append_left _ he')]

/-! ## The result of events -/

/-- What the result of events for a program of `length` bytes has from them. -/
structure Placements (l : Language) (length : Nat) (events : List Event) (r : Recovered) : Prop where
  /-- The elements are the content for which a position waits, drawn there. -/
  elements : r.elements = drawnElements (placings events)
  /-- All other content is skipped, with the events that say so. -/
  skipped : r.skipped = (placings events).countP (·.place?.isNone) + events.countP Event.isSkip
  /-- All other content is reported in its place among what the events bring along. -/
  findings : r.findings = (withBefore events).filterMap (findingAfter l) ++
    if r.elements = [] then [⟨.nothing, ⟨0, length⟩⟩] else []
  /-- It is reported once, whatever else events report under the same code. -/
  unplaced : r.diagnostics.countP (·.id = "LBL1103") =
    (placings events).countP (·.place?.isNone) + events.countP Event.bringsUnplaced
  /-- Content becomes an element or is reported so. -/
  total : r.elements.length + r.diagnostics.countP (·.id = "LBL1103") =
    events.countP (·.content?.isSome) + events.countP Event.bringsUnplaced
  /-- The page has the width and the height declared last, if both are declared. -/
  page : ∀ width height, r.page = some ⟨width, height⟩ ↔
    (events.filterMap Event.width?).getLast? = some width ∧ (events.filterMap Event.height?).getLast? = some height

theorem findings_finish (a : Assembly) (length : Nat) : (a.finish length).findings =
    a.findings ++ if a.elements = [] then [⟨.nothing, ⟨0, length⟩⟩] else [] := by
  simp only [Assembly.finish, List.isEmpty_iff]
  split
  · rfl
  · exact (List.append_nil _).symm

theorem page_finish (a : Assembly) (length : Nat) (width height : UInt32) :
    (a.finish length).page = some ⟨width, height⟩ ↔ a.pageWidth = some width ∧ a.pageHeight = some height := by
  simp only [Assembly.finish, Assembly.page]
  cases a.pageWidth <;> cases a.pageHeight <;> simp

theorem assemble_eq (l : Language) (length : Nat) (events : List Event) :
    assemble l length events = (Assembly.ofEvents l events).finish length := by
  rw [assemble, Assembly.foldl_feed]

/-- The report that there is no element is none of content without a position. -/
theorem countP_unplaced_finish (l : Language) (length : Nat) (events : List Event) :
    ((Assembly.ofEvents l events).finish length).diagnostics.countP (·.id = "LBL1103") =
      (placings events).countP (·.place?.isNone) + events.countP Event.bringsUnplaced := by
  have hnothing : List.countP Finding.isUnplaced
      (if (Assembly.ofEvents l events).elements = [] then [⟨.nothing, ⟨0, length⟩⟩] else []) = 0 := by
    split <;> rfl
  calc ((Assembly.ofEvents l events).finish length).diagnostics.countP (·.id = "LBL1103")
      = ((Assembly.ofEvents l events).finish length).findings.countP Finding.isUnplaced := List.countP_map
    _ = (Assembly.ofEvents l events).findings.countP Finding.isUnplaced := by
        rw [findings_finish, List.countP_append, hnothing, Nat.add_zero]
    _ = (placings events).countP (·.place?.isNone) + events.countP Event.bringsUnplaced :=
        countP_findings l events

/-- Where no event brings such a report, it is that of the content for which no position waits. -/
theorem filter_unplaced_finish (l : Language) (length : Nat) {events : List Event}
    (h : ∀ e ∈ events, e.bringsUnplaced = false) :
    ((Assembly.ofEvents l events).finish length).diagnostics.filter (·.id = "LBL1103") =
      ((placings events).filterMap (Placing.unplaced? l)).map Finding.diagnostic := by
  have hnothing : List.filter Finding.isUnplaced
      (if (Assembly.ofEvents l events).elements = [] then [⟨.nothing, ⟨0, length⟩⟩] else []) = [] := by
    split <;> rfl
  have hfilter : ((Assembly.ofEvents l events).finish length).findings.filter Finding.isUnplaced =
      (placings events).filterMap (Placing.unplaced? l) := by
    rw [findings_finish, List.filter_append, hnothing, List.append_nil]
    exact filter_findings l h
  rw [Recovered.diagnostics, List.filter_map, ← hfilter]
  rfl

/-- **The elements and the reports of content without a position are as many as the content.** -/
theorem length_placed_add_unplaced (events : List Event) : (drawnElements (placings events)).length +
    (placings events).countP (·.place?.isNone) = events.countP (·.content?.isSome) := by
  rw [length_drawnElements, ← length_placings, List.length_eq_countP_add_countP (·.place?.isSome)]
  congr 2
  funext p
  cases p.place? <;> rfl

/--
**Each position is used at most once**, by the next content if no other position stands between them. Nothing else moves
elements. In programs, all reports of content without a position are about content that is no element.
-/
theorem placements_assemble (l : Language) :
    (∀ length events, Placements l length events (assemble l length events)) ∧
      (∀ length events, (assemble l length (events.filter Event.moves)).elements =
        (assemble l length events).elements) ∧
      ∀ program, (recover l program).elements.length +
        (recover l program).diagnostics.countP (·.id = "LBL1103") =
          (l.events program.toList).countP (·.content?.isSome) := by
  have hall : ∀ length events, Placements l length events (assemble l length events) := by
    intro length events
    rw [assemble_eq]
    exact {
      elements := rfl
      skipped := rfl
      findings := findings_finish _ length
      unplaced := countP_unplaced_finish l length events
      total := by
        rw [countP_unplaced_finish, ← length_placed_add_unplaced, Nat.add_assoc]
        rfl
      page := page_finish _ length }
  refine ⟨hall, fun length events => ?_, fun program => ?_⟩
  · rw [(hall length _).elements, (hall length _).elements, placings_filter_moves]
  · have hnone : (l.events program.toList).countP Event.bringsUnplaced = 0 := by
      refine List.countP_eq_zero.2 fun e he => ?_
      rw [(l.accountable_events program.toList e he).bringsUnplaced_eq]
      exact Bool.false_ne_true
    have htotal := (hall (Text.byteLength program.toList) (l.events program.toList)).total
    rw [hnone, Nat.add_zero] at htotal
    rw [recover_eq]
    exact htotal

end ThermalLabel

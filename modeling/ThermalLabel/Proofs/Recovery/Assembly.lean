import ThermalLabel.Recovery.Assembly

/-!
# Events that draw elements

Of an event, only its effect reaches the elements and the page: spans are for reports, and setup does nothing
(`foldl_feed_effects`). Steps that set a position and draw there, again and again, append one element each
(`Draws.foldl_take`). So a program that declares its page, draws some elements and does nothing else is recovered as
just these (`assemble_of_effects`).
-/

namespace ThermalLabel

/-! ## Effects -/

/-- The step of an event, unless it is without effect. A note is a finding, as a skip is. -/
def Event.effect? : Event → Option Step
  | .step .setup _ => none
  | .step s _ => some s
  | .note f => some (.skip f.cause)

/-- The steps of events that have an effect. -/
def effects (es : List Event) : List Step := es.filterMap Event.effect?

theorem effects_append (a b : List Event) : effects (a ++ b) = effects a ++ effects b := List.filterMap_append

/-- Is nothing skipped, and does each content have a position of its own? `placed` says whether one is known already. -/
def Placed : Bool → List Step → Prop
  | _, [] => True
  | _, .position _ :: ss => Placed true ss
  | placed, .content _ :: ss => placed = true ∧ Placed false ss
  | placed, .page _ _ :: ss => Placed placed ss
  | placed, .setup :: ss => Placed placed ss
  | _, .skip _ :: _ => False

/-- The assembly after a step whose place in the program is not recorded. -/
def Assembly.take (a : Assembly) (s : Step) : Assembly := a.feed (.step s ⟨0, 0⟩)

/-- Content at a known position becomes an element, wherever it stands in the program. -/
theorem Assembly.draw_of_position {a : Assembly} {place : Point} (h : a.position = some place) (c : Content)
    (span : Span) : a.draw c span =
      { a with position := none, elements := a.elements ++ [c.element a.elements.length place] } := by
  simp only [Assembly.draw, h]

/-- **Only effects matter** where nothing is skipped and all content is placed. -/
theorem foldl_feed_effects : ∀ (es : List Event) (a : Assembly), Placed a.position.isSome (effects es) →
    es.foldl Assembly.feed a = (effects es).foldl Assembly.take a
  | [], _, _ => rfl
  | .step (.position p) _ :: es, a, h => foldl_feed_effects es { a with position := some p } h
  | .step (.page w l) _ :: es, a, h =>
    foldl_feed_effects es { a with pageWidth := w.or a.pageWidth, pageHeight := l.or a.pageHeight } h
  | .step .setup _ :: es, a, h => foldl_feed_effects es a h
  | .step (.skip _) _ :: _, _, h => h.elim
  | .note _ :: _, _, h => h.elim
  | .step (.content c) span :: es, a, h => by
    obtain ⟨hp, hes⟩ : a.position.isSome = true ∧ Placed false (effects es) := h
    obtain ⟨place, hplace⟩ := Option.isSome_iff_exists.1 hp
    have hfeed : a.feed (.step (.content c) span) = a.take (.content c) := by
      simp only [Assembly.take, Assembly.feed, Assembly.draw_of_position hplace]
    have hnone : (a.take (.content c)).position.isSome = false := by
      simp only [Assembly.take, Assembly.feed, Assembly.draw_of_position hplace, Option.isSome_none]
    rw [List.foldl_cons, hfeed]
    exact foldl_feed_effects es (a.take (.content c)) (by rw [hnone]; exact hes)

/-! ## Drawing elements -/

/-- The element as the one recovered after `index` others. -/
def Element.numbered (index : Nat) (e : Element) : Element :=
  { e with id := clampWord (index + 1), zOrder := zOrderOf index }

/-- The elements numbered and stacked in the order of the list. -/
def renumbered (es : List Element) : List Element := es.mapIdx Element.numbered

/-- The steps draw the elements one after the other, each at its position. -/
inductive Draws : List Step → List Element → Prop
  | nil : Draws [] []
  | cons {c : Content} {e : Element} {ss : List Step} {es : List Element} :
      (∀ index, c.element index e.position = e.numbered index) → Draws ss es →
        Draws (.position e.position :: .content c :: ss) (e :: es)

theorem Draws.append {ss ss' : List Step} {es es' : List Element} (h : Draws ss es) (h' : Draws ss' es') :
    Draws (ss ++ ss') (es ++ es') := by
  induction h with
  | nil => exact h'
  | cons hc _ ih => exact .cons hc ih

theorem Draws.placed {ss : List Step} {es : List Element} (h : Draws ss es) : Placed false ss := by
  induction h with
  | nil => trivial
  | cons _ _ ih => exact ⟨rfl, ih⟩

/-- Drawing appends the elements, numbered on from those before. -/
theorem Draws.foldl_take {ss : List Step} {es : List Element} (h : Draws ss es) : ∀ a : Assembly, a.position = none →
    ss.foldl Assembly.take a =
      { a with elements := a.elements ++ es.mapIdx fun i e => e.numbered (a.elements.length + i) } := by
  induction h with
  | nil => intro a _; simp
  | @cons c e ss es hc _ ih =>
    intro a ha
    have hfirst : (a.take (.position e.position)).take (.content c) =
        { a with elements := a.elements ++ [e.numbered a.elements.length] } := by
      rw [Assembly.take, Assembly.feed, Assembly.draw_of_position rfl]
      simp only [Assembly.take, Assembly.feed, hc, ha]
    rw [List.foldl_cons, List.foldl_cons, hfirst]
    refine (ih { a with elements := a.elements ++ [e.numbered a.elements.length] } ha).trans ?_
    simp [List.mapIdx_cons, Nat.add_assoc, Nat.add_comm 1]

/-! ## Stacking -/

theorem toInt_zOrderOf (index : Nat) : (zOrderOf index).toInt = min index 2147483647 := by
  exact Int32.toInt_ofNat_of_lt (by omega)

/-- Later elements are not stacked below earlier ones. -/
theorem pairwise_renumbered (es : List Element) :
    (renumbered es).Pairwise fun a b => decide (a.zOrder ≤ b.zOrder) = true := by
  rw [List.pairwise_iff_getElem]
  intro i j hi hj hij
  rw [decide_eq_true_iff, Int32.le_iff_toInt_le]
  simp only [renumbered, List.getElem_mapIdx, Element.numbered, toInt_zOrderOf]
  omega

/-- **Elements are recovered in stacking order.** -/
theorem stacked_renumbered (es : List Element) : stacked (renumbered es) = renumbered es :=
  List.mergeSort_of_pairwise (pairwise_renumbered es)

/-- What does not depend on numbers is the same of numbered elements. -/
theorem map_renumbered {α : Type} {f : Element → α} (h : ∀ (index : Nat) (e : Element), f (e.numbered index) = f e)
    (es : List Element) : (renumbered es).map f = es.map f := by
  apply List.ext_getElem
  · simp [renumbered]
  · intro i hi hi'
    simp only [renumbered, List.getElem_map, List.getElem_mapIdx, h]

theorem filterMap_renumbered {α : Type} {f : Element → Option α}
    (h : ∀ (index : Nat) (e : Element), f (e.numbered index) = f e) (es : List Element) :
    (renumbered es).filterMap f = es.filterMap f := by
  have hmap : ∀ xs : List Element, xs.filterMap f = (xs.map f).filterMap id := by
    intro xs
    rw [List.filterMap_map]
    rfl
  rw [hmap, map_renumbered h, ← hmap]

/-! ## Whole programs -/

/-- The steps that declare a page: both sides at once, or first the width. -/
inductive Declares (width height : UInt32) : List Step → Prop
  | atOnce : Declares width height [.page (some width) (some height)]
  | inTurn : Declares width height [.page (some width) none, .page none (some height)]

/-- What is recovered from a program of `length` bytes that draws elements on a page and has nothing to report. -/
def Recovered.complete (page : Extent) (length : Nat) (es : List Element) : Recovered where
  elements := renumbered es
  findings := if es.isEmpty then [⟨.nothing, ⟨0, length⟩⟩] else []
  skipped := 0
  page := some page

/-- What there is to see of such a result: its only report is that nothing was drawn. -/
theorem Recovered.of_complete {r : Recovered} {page : Extent} {length : Nat} {es : List Element}
    (h : r = complete page length es) : r.skipped = 0 ∧ r.page = some page ∧ r.elements = renumbered es ∧
      r.diagnostics.map Diagnostic.id = if es.length = 0 then ["LBL1104"] else [] := by
  subst h
  refine ⟨rfl, rfl, rfl, ?_⟩
  cases es with
  | nil => rfl
  | cons e es => rfl

/-- **Events that declare a page and draw elements are recovered as just these.** -/
theorem assemble_of_effects {l : Language} {events : List Event} {page : Extent} {declared drawn : List Step}
    {es : List Element} (length : Nat) (he : effects events = declared ++ drawn)
    (hp : Declares page.width page.height declared) (hd : Draws drawn es) :
    assemble l length events = .complete page length es := by
  have hplaced : Placed false (effects events) := by
    rw [he]
    cases hp <;> exact hd.placed
  have hpage : declared.foldl Assembly.take { language := l } =
      { language := l, pageWidth := some page.width, pageHeight := some page.height } := by
    cases hp <;> rfl
  have hrun := foldl_feed_effects events { language := l } hplaced
  rw [assemble, hrun, he, List.foldl_append, hpage, hd.foldl_take _ rfl]
  simp only [Assembly.finish, Recovered.complete, Assembly.page, List.nil_append, List.length_nil, Nat.zero_add]
  congr 1
  cases es <;> simp

end ThermalLabel

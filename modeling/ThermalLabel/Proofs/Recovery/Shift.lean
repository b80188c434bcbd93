import ThermalLabel.Proofs.Recovery.Assembly

/-!
# Events that move

Text in front of a program moves the bytes that its events are about (`Event.shift`) and nothing else. What the moved
events do is said for two cases:

* **after a finished piece**: where no position is left, they draw the elements that they draw on their own, numbered
  on, and report the same findings, moved (`foldl_feed_shift`);
* **after a skip**: a command more that is skipped changes no more than the findings and their number
  (`SkipsMore.foldl`).
-/

namespace ThermalLabel

/-! ## Moving -/

/-- The span moved on by `k` bytes. -/
def Span.shift (k : Nat) (s : Span) : Span := ⟨s.start + k, s.stop + k⟩

/-- The finding moved on by `k` bytes. -/
def Finding.shift (k : Nat) (f : Finding) : Finding := { f with span := f.span.shift k }

/-- The report moved on by `k` bytes. -/
def Diagnostic.shift (k : Nat) (d : Diagnostic) : Diagnostic := { d with span := d.span.map (Span.shift k) }

/-- The event moved on by `k` bytes. -/
def Event.shift (k : Nat) : Event → Event
  | .step s span => .step s (span.shift k)
  | .note f => .note (f.shift k)

/-! ## Numbering on -/

/-- Content gives the same element after any number of others, but for its number. -/
theorem Content.numbered_element (c : Content) (i j : Nat) (place : Point) :
    (c.element i place).numbered j = c.element j place := by
  cases c <;> rfl

/-- The elements numbered on after `n` others. -/
def numberedFrom (n : Nat) (es : List Element) : List Element := es.mapIdx fun i e => e.numbered (n + i)

theorem numberedFrom_concat (n : Nat) (es : List Element) (e : Element) :
    numberedFrom n (es ++ [e]) = numberedFrom n es ++ [e.numbered (n + es.length)] := by
  simp [numberedFrom]

theorem renumbered_append (es es' : List Element) :
    renumbered (es ++ es') = renumbered es ++ numberedFrom es.length es' := by
  rw [renumbered, List.mapIdx_append]
  simp only [renumbered, numberedFrom, Nat.add_comm]

theorem length_numberedFrom (n : Nat) (es : List Element) : (numberedFrom n es).length = es.length := by
  simp [numberedFrom]

/-! ## One piece after another -/

namespace Assembly

/-- The assembly of a piece, and then of another piece that starts `k` bytes later and of which `b` is the assembly. -/
def followedBy (a : Assembly) (k : Nat) (b : Assembly) : Assembly where
  language := a.language
  position := b.position
  elements := a.elements ++ numberedFrom a.elements.length b.elements
  findings := a.findings ++ b.findings.map (Finding.shift k)
  skipped := a.skipped + b.skipped
  pageWidth := b.pageWidth.or a.pageWidth
  pageHeight := b.pageHeight.or a.pageHeight

/-- Nothing follows. -/
theorem followedBy_empty {a : Assembly} (h : a.position = none) (k : Nat) :
    a.followedBy k { language := a.language } = a := by
  obtain ⟨language, position, elements, findings, skipped, width, height⟩ := a
  obtain rfl : position = none := h
  simp [followedBy, numberedFrom]

theorem language_feed (a : Assembly) (e : Event) : (a.feed e).language = a.language := by
  cases e with
  | note f => rfl
  | step s span =>
    cases s with
    | content c =>
      simp only [feed, draw]
      split <;> rfl
    | position place | page width height | setup | skip cause => rfl

/-- **One event more**: feeding it to both pieces together is feeding it to the second one. -/
theorem feed_followedBy {a b : Assembly} (h : b.language = a.language) (k : Nat) (e : Event) :
    (a.followedBy k b).feed (e.shift k) = a.followedBy k (b.feed e) := by
  cases e with
  | note f => simp [Event.shift, feed, followedBy]
  | step s span =>
    cases s with
    | position place => rfl
    | setup => rfl
    | page width height => simp [Event.shift, feed, followedBy, Option.or_assoc]
    | skip cause =>
      simp only [Event.shift, feed, followedBy, skip, List.map_append, List.append_assoc, Nat.add_assoc]
      rfl
    | content c =>
      cases hp : b.position with
      | none =>
        simp only [Event.shift, feed, draw, followedBy, hp, skip, List.map_append, List.append_assoc, Nat.add_assoc, h]
        rfl
      | some place =>
        have helement : (c.element b.elements.length place).numbered (a.elements.length + b.elements.length) =
            c.element (a.elements.length + b.elements.length) place := c.numbered_element _ _ _
        simp only [Event.shift, feed, draw, followedBy, hp, numberedFrom_concat, helement, List.length_append,
          length_numberedFrom, List.append_assoc]

theorem foldl_feed_followedBy (k : Nat) : ∀ (es : List Event) {a b : Assembly}, b.language = a.language →
    (es.map (Event.shift k)).foldl feed (a.followedBy k b) = a.followedBy k (es.foldl feed b)
  | [], _, _, _ => rfl
  | e :: es, a, b, h => by
    rw [List.map_cons, List.foldl_cons, List.foldl_cons, feed_followedBy h]
    exact foldl_feed_followedBy k es ((language_feed b e).trans h)

/-- **A piece after a finished one** adds what it is on its own. -/
theorem foldl_feed_shift {a : Assembly} (h : a.position = none) (k : Nat) (es : List Event) :
    (es.map (Event.shift k)).foldl feed a = a.followedBy k (es.foldl feed { language := a.language }) := by
  have hrun := foldl_feed_followedBy k es (a := a) (b := { language := a.language }) rfl
  rwa [followedBy_empty h] at hrun

/-! ## After a skip -/

/-- The assemblies differ in no more than the findings, and the first has skipped `n` commands more. -/
structure SkipsMore (n : Nat) (a b : Assembly) : Prop where
  position : a.position = b.position
  elements : a.elements = b.elements
  pageWidth : a.pageWidth = b.pageWidth
  pageHeight : a.pageHeight = b.pageHeight
  skipped : a.skipped = b.skipped + n

theorem skipsMore_skip (a : Assembly) (cause : Cause) (span : Span) : SkipsMore 1 (a.skip cause span) a :=
  ⟨rfl, rfl, rfl, rfl, rfl⟩

theorem SkipsMore.skip {n : Nat} {a b : Assembly} (h : SkipsMore n a b) (c c' : Cause) (s s' : Span) :
    SkipsMore n (a.skip c s) (b.skip c' s') := by
  refine ⟨h.position, h.elements, h.pageWidth, h.pageHeight, ?_⟩
  have hskipped := h.skipped
  show a.skipped + 1 = b.skipped + 1 + n
  omega

/-- One event more, wherever it stands. -/
theorem SkipsMore.feed {n : Nat} {a b : Assembly} (h : SkipsMore n a b) (k : Nat) (e : Event) :
    SkipsMore n (a.feed (e.shift k)) (b.feed e) := by
  cases e with
  | note f => exact ⟨h.position, h.elements, h.pageWidth, h.pageHeight, h.skipped⟩
  | step s span =>
    cases s with
    | position place => exact ⟨rfl, h.elements, h.pageWidth, h.pageHeight, h.skipped⟩
    | setup => exact h
    | page width height =>
      refine ⟨h.position, h.elements, ?_, ?_, h.skipped⟩
      · exact congrArg width.or h.pageWidth
      · exact congrArg height.or h.pageHeight
    | skip cause => exact h.skip cause cause _ _
    | content c =>
      have hposition := h.position
      cases hp : b.position with
      | none =>
        rw [hp] at hposition
        simp only [Event.shift, Assembly.feed, draw, hp, hposition]
        exact h.skip _ _ _ _
      | some place =>
        rw [hp] at hposition
        simp only [Event.shift, Assembly.feed, draw, hp, hposition]
        refine ⟨rfl, ?_, h.pageWidth, h.pageHeight, h.skipped⟩
        rw [h.elements]

/-- **A skip leaves all that follows as it was.** -/
theorem SkipsMore.foldl {n : Nat} (k : Nat) : ∀ (es : List Event) {a b : Assembly}, SkipsMore n a b →
    SkipsMore n ((es.map (Event.shift k)).foldl Assembly.feed a) (es.foldl Assembly.feed b)
  | [], _, _, h => h
  | e :: es, _, _, h => by
    rw [List.map_cons, List.foldl_cons, List.foldl_cons]
    exact SkipsMore.foldl k es (h.feed k e)

theorem SkipsMore.page {n : Nat} {a b : Assembly} (h : SkipsMore n a b) : a.page = b.page := by
  unfold Assembly.page
  rw [h.pageWidth, h.pageHeight]

end Assembly

end ThermalLabel

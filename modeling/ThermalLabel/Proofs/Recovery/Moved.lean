import ThermalLabel.Recovery.Assembly

/-!
# Programs with other offsets

Where two programs have the same events but for the offsets of these, they are recovered as the same elements, and their
findings are the same but for offsets (`assemble_moved`).
-/

namespace ThermalLabel

variable (m : Nat → Nat)

/-- The span with both ends moved. -/
def Span.moved (s : Span) : Span := ⟨m s.start, m s.stop⟩

/-- The finding with its span moved. -/
def Finding.moved (f : Finding) : Finding := { f with span := f.span.moved m }

/-- The report with its span moved. -/
def Diagnostic.moved (d : Diagnostic) : Diagnostic := { d with span := d.span.map (Span.moved m) }

/-- The event with its span moved. -/
def Event.moved : Event → Event
  | .step s span => .step s (span.moved m)
  | .note f => .note (f.moved m)

/-- The assembly with the spans of its findings moved. -/
def Assembly.moved (a : Assembly) : Assembly := { a with findings := a.findings.map (Finding.moved m) }

/-- The result with the spans of its findings moved. -/
def Recovered.moved (r : Recovered) : Recovered := { r with findings := r.findings.map (Finding.moved m) }

theorem Recovered.diagnostics_moved (r : Recovered) :
    (r.moved m).diagnostics = r.diagnostics.map (Diagnostic.moved m) := by
  rw [diagnostics, diagnostics, moved, List.map_map, List.map_map]
  rfl

/-- The same was recovered: elements, page, number of commands skipped and reports, but for the spans of these. -/
structure Recovered.SameButSpans (r r' : Recovered) : Prop where
  elements : r'.elements = r.elements
  page : r'.page = r.page
  skipped : r'.skipped = r.skipped
  diagnostics : r'.diagnostics = r.diagnostics.map (Diagnostic.moved m)

theorem Recovered.sameButSpans_moved (r : Recovered) : r.SameButSpans m (r.moved m) :=
  ⟨rfl, rfl, rfl, r.diagnostics_moved m⟩

/-- **One event** does the same wherever it stands. -/
theorem Assembly.feed_moved (a : Assembly) (e : Event) : (a.moved m).feed (e.moved m) = (a.feed e).moved m := by
  cases e with
  | note f => simp [Event.moved, feed, moved]
  | step s span =>
    cases s with
    | position place | page width height | setup => rfl
    | skip cause =>
      simp only [Event.moved, feed, skip, moved, List.map_append]
      rfl
    | content c =>
      cases hp : a.position with
      | none =>
        simp only [Event.moved, feed, draw, hp, skip, moved, List.map_append]
        rfl
      | some place => simp only [Event.moved, feed, draw, hp, moved]

theorem Assembly.foldl_feed_moved : ∀ (es : List Event) (a : Assembly),
    (es.map (Event.moved m)).foldl feed (a.moved m) = (es.foldl feed a).moved m
  | [], _ => rfl
  | e :: es, a => by
    rw [List.map_cons, List.foldl_cons, List.foldl_cons, feed_moved, foldl_feed_moved es]

section Ends

variable {m} {length length' : Nat} (hstart : m 0 = 0) (hend : m length = length')

include hstart hend

theorem Assembly.finish_moved (a : Assembly) : (a.moved m).finish length' = (a.finish length).moved m := by
  have hnothing : Finding.moved m ⟨.nothing, ⟨0, length⟩⟩ = ⟨.nothing, ⟨0, length'⟩⟩ := by
    rw [Finding.moved, Span.moved, hstart, hend]
  cases hnone : a.elements.isEmpty with
  | true =>
    simp only [finish, Recovered.moved, moved, hnone, if_true, List.map_append, List.map_singleton, hnothing]
    rfl
  | false =>
    simp only [finish, Recovered.moved, moved, hnone, Bool.false_eq_true, if_false]
    rfl

/-- **Events with other offsets are recovered as the same**, if the ends of the program are moved to its ends. -/
theorem assemble_moved (l : Language) (es : List Event) :
    assemble l length' (es.map (Event.moved m)) = (assemble l length es).moved m := by
  have hrun : (es.map (Event.moved m)).foldl Assembly.feed { language := l } =
      (es.foldl Assembly.feed { language := l }).moved m := Assembly.foldl_feed_moved m es { language := l }
  rw [assemble, assemble, hrun, Assembly.finish_moved hstart hend]

end Ends

end ThermalLabel

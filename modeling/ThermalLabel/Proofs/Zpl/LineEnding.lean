import ThermalLabel.Proofs.Recovery.Moved
import ThermalLabel.Proofs.Text.LineEnding
import ThermalLabel.Proofs.Zpl.Cut
import ThermalLabel.Proofs.Zpl.Kind

/-!
# Carriage returns in ZPL

A carriage return with its line feed is one token, as a line feed is. So a program with carriage returns has the tokens
and the segments of the program, moved (`tokens_withReturns`, `segments_withReturns`), but field data and comments that
go on over a line break now hold it with its carriage return. Where no segment holds a line feed, the program does
the same with carriage returns (`events_withReturns`).
-/

namespace ThermalLabel.Zpl

open Text (withReturns movedOffset)

/-! ## Tokens -/

/-- The token with carriage returns and its offset moved. -/
def Token.withReturns (m : Nat → Nat) (t : Token) : Token := ⟨t.kind, Text.withReturns t.text, m t.start⟩

/-- The first token of a text with carriage returns. -/
theorem tokens_cons_withReturns {c : Char} (hc : c ≠ '\r') (offset : Nat) (cs : List Char) :
    let t : Token := ⟨(firstToken c cs).1, withReturns (c :: (firstToken c cs).2.1), offset⟩
    tokens offset (withReturns (c :: cs)) = t :: tokens t.stop (withReturns (firstToken c cs).2.2) := by
  intro t
  by_cases hn : c = '\n'
  · subst hn
    rw [Text.withReturns_lineFeed, tokens]
    rfl
  · have hfirst : firstToken c (withReturns cs) =
        ((firstToken c cs).1, withReturns (firstToken c cs).2.1, withReturns (firstToken c cs).2.2) := by
      have hblank : isInnerBlank '\r' = isInnerBlank '\n' := by decide
      have hvalue : isValueChar '\r' = isValueChar '\n' := by decide
      rw [firstToken.eq_def, firstToken.eq_def]
      split
      · rfl
      split
      · rfl
      split
      · rw [Text.takeWhile_withReturns hblank, Text.dropWhile_withReturns hblank]
      · rw [Text.takeWhile_withReturns hvalue, Text.dropWhile_withReturns hvalue]
    rw [Text.withReturns_cons hn, tokens, hfirst, ← Text.withReturns_cons hn]

/-- **The tokens of a text with carriage returns** are its tokens with carriage returns, moved. -/
theorem tokens_withReturns (offset : Nat) (cs : List Char) : ∀ before : List Char, Text.byteLength before = offset →
    '\r' ∉ cs → tokens (Text.byteLength (withReturns before)) (withReturns cs) =
      (tokens offset cs).map (Token.withReturns (movedOffset (before ++ cs))) := by
  fun_induction tokens offset cs with
  | case1 => exact fun _ _ _ => tokens.eq_1 _
  | case2 offset c cs t ih =>
    intro before hbefore hcs
    have htext : t.text ++ (firstToken c cs).2.2 = c :: cs := congrArg (c :: ·) (firstToken_append c cs)
    have hrest : '\r' ∉ (firstToken c cs).2.2 := fun hm => hcs (htext ▸ List.mem_append_right _ hm)
    have hstart : movedOffset (before ++ c :: cs) t.start = Text.byteLength (withReturns before) := by
      show movedOffset _ offset = _
      rw [← hbefore, Text.movedOffset_byteLength]
    have ih := ih (before ++ t.text) (by rw [Text.byteLength_append, hbefore]; rfl) hrest
    rw [List.append_assoc, htext, Text.withReturns_append, Text.byteLength_append] at ih
    rw [tokens_cons_withReturns fun hc => hcs (hc ▸ List.mem_cons_self), List.map_cons, ← ih, Token.withReturns, hstart]
    rfl

theorem Token.Fits.lineFeed_not_mem {t : Token} (h : t.Fits) (hk : t.kind ≠ .lineBreak) : '\n' ∉ t.text := by
  intro hm
  by_cases hleader : t.kind = .leader
  · unfold Fits at h
    rw [hleader] at h
    obtain ⟨c, hc, htext⟩ := h
    rw [htext, List.mem_singleton] at hm
    rw [← hm] at hc
    exact absurd hc (by decide)
  · exact absurd (h.inner hleader hk _ hm) (by decide)

/-! ## Segments -/

/-- The segment with carriage returns and its span moved. -/
def Segment.withReturns (m : Nat → Nat) : Segment → Segment
  | .bare leader span => .bare leader (span.moved m)
  | .stray text span => .stray (Text.withReturns text) (span.moved m)
  | .command c span => .command { c with body := Text.withReturns c.body } (span.moved m)

theorem joined_withReturns (m : Nat → Nat) (ts : List Token) :
    joined (ts.map (Token.withReturns m)) = withReturns (joined ts) := by
  induction ts with
  | nil => rfl
  | cons t ts ih =>
    have hjoined : joined (t :: ts) = t.text ++ joined ts := rfl
    rw [hjoined, Text.withReturns_append, ← ih]
    rfl

theorem continues_withReturns (m : Nat → Nat) (multiline : Bool) :
    continues multiline ∘ Token.withReturns m = continues multiline := rfl

/-- A token without line feeds only moves. -/
theorem Token.withReturns_of_not_mem {t : Token} (h : '\n' ∉ t.text) (m : Nat → Nat) :
    t.withReturns m = ⟨t.kind, t.text, m t.start⟩ := by
  rw [Token.withReturns, Text.withReturns_of_not_mem h]

section Segments

variable {program before : List Char}

/-- The span of a part of the program, moved. -/
theorem moved_span {text after : List Char} (h : program = before ++ text ++ after) :
    Span.moved (movedOffset program) ⟨Text.byteLength before, Text.byteLength before + Text.byteLength text⟩ =
      ⟨Text.byteLength (withReturns before),
        Text.byteLength (withReturns before) + Text.byteLength (withReturns text)⟩ := by
  have hstart : movedOffset program (Text.byteLength before) = Text.byteLength (withReturns before) := by
    rw [h, List.append_assoc, Text.movedOffset_byteLength]
  have hstop : movedOffset program (Text.byteLength before + Text.byteLength text) =
      Text.byteLength (withReturns before) + Text.byteLength (withReturns text) := by
    rw [h, ← Text.byteLength_append, Text.movedOffset_byteLength, Text.withReturns_append, Text.byteLength_append]
  rw [Span.moved, hstart, hstop]

/-- Where a token is that remains. -/
theorem Remains.start_withReturns {t : Token} {ts : List Token} (h : Remains program before (t :: ts)) :
    (t.withReturns (movedOffset program)).start = Text.byteLength (withReturns before) := by
  have hstart : t.start = Text.byteLength before := h.tile.1
  show movedOffset program t.start = _
  rw [hstart, h.text, Text.movedOffset_byteLength]

theorem Remains.span_withReturns {t : Token} {ts : List Token} (h : Remains program before (t :: ts)) :
    (t.withReturns (movedOffset program)).span = t.span.moved (movedOffset program) := by
  have hstart : t.start = Text.byteLength before := h.tile.1
  have hprogram : program = before ++ t.text ++ joined ts := h.tail.text
  rw [Token.span, Token.span, Token.stop, Token.stop, h.start_withReturns, hstart, moved_span hprogram]
  rfl

theorem strayOf_withReturns {t : Token} {taken rest : List Token} (h : Remains program before (t :: taken ++ rest)) :
    strayOf ((t :: taken).map (Token.withReturns (movedOffset program))) (movedOffset program t.start) =
      (strayOf (t :: taken) t.start).withReturns (movedOffset program) := by
  have htrim : Text.trimRight (withReturns (joined (t :: taken))) =
      withReturns (Text.trimRight (joined (t :: taken))) := Text.dropRightWhile_withReturns (by decide) _
  have hstart : t.start = Text.byteLength before := h.tile.1
  have hmoved : movedOffset program t.start = Text.byteLength (withReturns before) := h.start_withReturns
  obtain ⟨blank, hblank, -⟩ := Text.exists_dropRightWhile Text.isBlank (joined (t :: taken))
  have hprogram : program = before ++ Text.trimRight (joined (t :: taken)) ++ (blank ++ joined rest) := by
    have htext := h.append.text
    rw [hblank] at htext
    simpa only [Text.trimRight, List.append_assoc] using htext
  rw [strayOf, strayOf, joined_withReturns, htrim, hmoved, hstart, Segment.withReturns, moved_span hprogram]

/-- The span from a leader to the end of what its command takes, moved. Only what is taken may hold line feeds. -/
theorem Remains.commandSpan_withReturns {t code : Token} {taken rest : List Token}
    (h : Remains program before (t :: code :: taken ++ rest)) (ht : '\n' ∉ t.text) (hcode : '\n' ∉ code.text) :
    Span.moved (movedOffset program) ⟨t.start, code.stop + Text.byteLength (joined taken)⟩ =
      ⟨movedOffset program t.start,
        movedOffset program code.start + Text.byteLength code.text + Text.byteLength (withReturns (joined taken))⟩ := by
  have hstart : t.start = Text.byteLength before := h.tile.1
  have hcodeStart : code.start = Text.byteLength before + Text.byteLength t.text := by
    rw [← Text.byteLength_append]
    exact h.tail.tile.1
  have hmoved : movedOffset program t.start = Text.byteLength (withReturns before) := h.start_withReturns
  have hcodeMoved : movedOffset program code.start = Text.byteLength (withReturns before) + Text.byteLength t.text := by
    have hboth : movedOffset program code.start = _ := h.tail.start_withReturns
    rw [hboth, Text.withReturns_append, Text.byteLength_append, Text.withReturns_of_not_mem ht]
  have hprogram : program = before ++ (t.text ++ code.text ++ joined taken) ++ joined rest := by
    have htext := h.tail.tail.append.text
    simpa only [List.append_assoc] using htext
  have hstop : code.stop + Text.byteLength (joined taken) =
      Text.byteLength before + Text.byteLength (t.text ++ code.text ++ joined taken) := by
    rw [Token.stop, hcodeStart, Text.byteLength_append, Text.byteLength_append]
    omega
  rw [hstop, hmoved, hcodeMoved, hstart, moved_span hprogram, Text.withReturns_append, Text.withReturns_append,
    Text.withReturns_of_not_mem ht, Text.withReturns_of_not_mem hcode, Text.byteLength_append, Text.byteLength_append]
  simp only [Nat.add_assoc]

theorem commandOf_withReturns {t code : Token} {taken rest : List Token}
    (h : Remains program before (t :: code :: taken ++ rest)) (ht : '\n' ∉ t.text) (hcode : '\n' ∉ code.text)
    (multiline : Bool) :
    commandOf (t.withReturns (movedOffset program)) (code.withReturns (movedOffset program)) multiline
        (taken.map (Token.withReturns (movedOffset program))) =
      (commandOf t code multiline taken).withReturns (movedOffset program) := by
  -- the whole of what follows the head
  have hdrop : '\n' ∉ code.text.drop (headLength code.text) := fun hm => hcode (List.mem_of_mem_drop hm)
  have hwhole : code.text.drop (headLength code.text) ++ withReturns (joined taken) =
      withReturns (code.text.drop (headLength code.text) ++ joined taken) := by
    rw [Text.withReturns_append, Text.withReturns_of_not_mem hdrop]
  have hbody : ∀ whole : List Char,
      (if multiline then Text.dropRightWhile isLineBreak (withReturns whole) else withReturns whole) =
        withReturns (if multiline then Text.dropRightWhile isLineBreak whole else whole) := by
    intro whole
    rw [Text.dropRightWhile_withReturns (by decide)]
    split <;> rfl
  rw [Token.withReturns_of_not_mem ht, Token.withReturns_of_not_mem hcode, commandOf, commandOf, joined_withReturns,
    Segment.withReturns, h.commandSpan_withReturns ht hcode]
  simp only [hwhole, hbody]
  rfl

/-- **The segments of tokens with carriage returns** are their segments with carriage returns, moved. -/
theorem segments_map_withReturns (ts : List Token) : ∀ before : List Char, Remains program before ts →
    (∀ t ∈ ts, t.Fits) → segments (ts.map (Token.withReturns (movedOffset program))) =
      (segments ts).map (Segment.withReturns (movedOffset program)) := by
  fun_induction segments ts with
  | case1 =>
    intro before _ _
    exact segments.eq_1
  | case2 t ts hk ih | case3 t ts hk ih =>
    intro before h hfits
    have hkind : (t.withReturns (movedOffset program)).kind = .blank ∨
        (t.withReturns (movedOffset program)).kind = .lineBreak := by simp [Token.withReturns, hk]
    rw [List.map_cons, segments_between _ hkind, ih _ h.tail fun x hx => hfits x (List.mem_cons_of_mem _ hx)]
  | case4 t ts hk ih | case5 t ts hk ih =>
    intro before h hfits
    have hkind : (t.withReturns (movedOffset program)).kind = .value ∨
        (t.withReturns (movedOffset program)).kind = .comma := by simp [Token.withReturns, hk]
    rw [← List.takeWhile_append_dropWhile (p := continues false) (l := ts), ← List.cons_append] at h
    have hrest := ih _ h.append fun x hx => hfits x (List.mem_cons_of_mem _ ((List.dropWhile_sublist _).subset hx))
    rw [List.map_cons, segments_stray _ hkind, List.takeWhile_map, List.dropWhile_map, continues_withReturns, hrest,
      List.map_cons, ← strayOf_withReturns h]
    rfl
  | case6 t hk code more hcode multiline ih =>
    intro before h hfits
    have ht : '\n' ∉ t.text := (hfits t List.mem_cons_self).lineFeed_not_mem (by simp [hk])
    have hc : '\n' ∉ code.text :=
      (hfits code (List.mem_cons_of_mem _ List.mem_cons_self)).lineFeed_not_mem (by simp [hcode])
    have hleader : (t.withReturns (movedOffset program)).kind = .leader := hk
    have hvalue : (code.withReturns (movedOffset program)).kind = .value := hcode
    rw [← List.takeWhile_append_dropWhile (p := continues multiline) (l := more), ← List.cons_append,
      ← List.cons_append] at h
    have hrest := ih _ h.append fun x hx =>
      hfits x (List.mem_cons_of_mem _ (List.mem_cons_of_mem _ ((List.dropWhile_sublist _).subset hx)))
    have hmultiline : Verb.isMultiline (Verb.of? (Leader.ofText (t.withReturns (movedOffset program)).text)
        (headOf (code.withReturns (movedOffset program)).text)) = multiline := by
      rw [Token.withReturns_of_not_mem ht, Token.withReturns_of_not_mem hc]
    rw [List.map_cons, List.map_cons, segments_leader hleader hvalue, hmultiline, List.takeWhile_map,
      List.dropWhile_map, continues_withReturns, hrest, commandOf_withReturns h ht hc, List.map_cons]
  | case7 t hk code more hcode ih =>
    intro before h hfits
    have ht : '\n' ∉ t.text := (hfits t List.mem_cons_self).lineFeed_not_mem (by simp [hk])
    have hnext : ∀ u ∈ ((code :: more).map (Token.withReturns (movedOffset program))).head?, u.kind ≠ .value := by
      intro u hu
      rw [← Option.some.inj hu]
      exact hcode
    rw [List.map_cons, segments_bare (t := t.withReturns _) _ hk hnext, h.span_withReturns,
      Token.withReturns_of_not_mem ht, ih _ h.tail fun x hx => hfits x (List.mem_cons_of_mem _ hx), List.map_cons]
    rfl
  | case8 t hk =>
    intro before h hfits
    have ht : '\n' ∉ t.text := (hfits t List.mem_cons_self).lineFeed_not_mem (by simp [hk])
    have hnext : ∀ u ∈ ([] : List Token).head?, u.kind ≠ .value := by
      intro u hu
      cases hu
    rw [List.map_singleton, segments_bare (t := t.withReturns _) _ hk hnext, h.span_withReturns,
      Token.withReturns_of_not_mem ht, segments]
    rfl

end Segments

/-- **The segments of a program with carriage returns** are its segments with carriage returns, moved. -/
theorem segments_withReturns {program : List Char} (h : '\r' ∉ program) :
    segments (tokens 0 (withReturns program)) =
      (segments (tokens 0 program)).map (Segment.withReturns (movedOffset program)) := by
  have htokens : tokens 0 (withReturns program) = (tokens 0 program).map (Token.withReturns (movedOffset program)) :=
    tokens_withReturns 0 program [] rfl h
  rw [htokens]
  exact segments_map_withReturns _ [] (remains_tokens program) (fits_of_mem_tokens 0 program)

/-! ## Events -/

/-- The stray text or the body that a segment holds. -/
def Segment.content : Segment → List Char
  | .bare .. => []
  | .stray text _ => text
  | .command c _ => c.body

/-- A segment without line feeds only moves. -/
theorem Segment.events_withReturns {s : Segment} (h : '\n' ∉ s.content) (m : Nat → Nat) (f : Format) :
    (s.withReturns m).events f = ((s.events f).1.map (Event.moved m), (s.events f).2) := by
  cases s with
  | bare leader span => rfl
  | stray text span =>
    have htext : Text.withReturns text = text := Text.withReturns_of_not_mem h
    rw [Segment.withReturns, htext]
    rfl
  | command c span =>
    have hbody : Text.withReturns c.body = c.body := Text.withReturns_of_not_mem h
    rw [Segment.withReturns, hbody]
    simp only [Segment.events, List.map_append, List.map_map]
    rfl

theorem events_map_withReturns (m : Nat → Nat) : ∀ (f : Format) (ss : List Segment), (∀ s ∈ ss, '\n' ∉ s.content) →
    events f (ss.map (Segment.withReturns m)) = (events f ss).map (Event.moved m)
  | _, [], _ => rfl
  | f, s :: ss, h => by
    rw [List.map_cons, events, events, Segment.events_withReturns (h s List.mem_cons_self),
      events_map_withReturns m _ ss fun x hx => h x (List.mem_cons_of_mem _ hx), List.map_append]

/-- **A program does the same with carriage returns** where no segment holds a line feed. -/
theorem events_withReturns {program : List Char} (h : '\r' ∉ program)
    (hs : ∀ s ∈ segments (tokens 0 program), '\n' ∉ s.content) (f : Format) :
    events f (segments (tokens 0 (withReturns program))) =
      (events f (segments (tokens 0 program))).map (Event.moved (movedOffset program)) := by
  rw [segments_withReturns h]
  exact events_map_withReturns _ f _ hs

end ThermalLabel.Zpl

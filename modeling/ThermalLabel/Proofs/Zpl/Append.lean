import ThermalLabel.Proofs.Recovery.Shift
import ThermalLabel.Proofs.Zpl.Segment
import ThermalLabel.Zpl.Recovery

/-!
# Texts in front of a leader

A leader begins a new token and a new segment, whatever is still open in front of it: field data, stray text, a carriage
return or another leader. So a text and a text that begins with a leader have the tokens and segments of both
(`tokens_append_of_start`, `segments_append_leader`), and the second is obeyed in the state that the first leaves
(`eventsAt_append_leader`). Its offset moves what is reported and nothing else (`eventsAt_shift`).
-/

namespace ThermalLabel.Zpl

/-! ## Tokens -/

/-- A text that begins with a leader, or nothing. -/
def AtLeader (rest : List Char) : Prop := rest.head?.all isLeader

instance : DecidablePred AtLeader := fun rest => inferInstanceAs (Decidable (rest.head?.all isLeader = true))

/-- Only a line feed joins a carriage return. -/
theorem firstToken_carriageReturn {cs : List Char} (h : cs.head? ≠ some '\n') :
    firstToken '\r' cs = (.lineBreak, [], cs) := by
  rw [firstToken.eq_def, if_neg (by decide), if_neg (by decide), if_pos rfl]
  split
  · exact absurd rfl h
  · rfl

/-- A text that begins a new token, whatever is in front of it: at a boundary, but for a line feed, which might go on a
carriage return. -/
def StartsToken (rest : List Char) : Prop := AtBoundary rest ∧ rest.head? ≠ some '\n'

section StartsToken

variable {rest : List Char} (h : StartsToken rest)

include h

/-- A token ends in front of a text that begins one. -/
theorem firstToken_append_of_start (c : Char) (cs : List Char) :
    firstToken c (cs ++ rest) = ((firstToken c cs).1, (firstToken c cs).2.1, (firstToken c cs).2.2 ++ rest) := by
  cases hc : isBoundary c with
  | false => exact firstToken_append_of_boundary hc h.1 cs
  | true =>
    rw [isBoundary, isLineBreak, Bool.or_eq_true, Bool.or_eq_true, beq_iff_eq, beq_iff_eq] at hc
    rcases hc with hl | rfl | rfl
    · rw [firstToken.eq_def, firstToken.eq_def, if_pos hl, if_pos hl]
    · rfl
    · by_cases hcs : cs.head? = some '\n'
      · obtain ⟨cs', rfl⟩ := List.head?_eq_some_iff.1 hcs
        rfl
      · have happend : (cs ++ rest).head? ≠ some '\n' := by
          cases cs with
          | nil => exact h.2
          | cons d cs => exact hcs
        rw [firstToken_carriageReturn happend, firstToken_carriageReturn hcs]

/-- **Tokens in front of a text that begins one** are those of the text before it. -/
theorem tokens_append_of_start (offset : Nat) (cs : List Char) :
    tokens offset (cs ++ rest) = tokens offset cs ++ tokens (offset + Text.byteLength cs) rest := by
  fun_induction tokens offset cs with
  | case1 => rfl
  | case2 offset c cs t ih =>
    have hlength : t.stop + Text.byteLength (firstToken c cs).2.2 = offset + Text.byteLength (c :: cs) := by
      have hlen := congrArg Text.byteLength (firstToken_append c cs)
      rw [Text.byteLength_append] at hlen
      show offset + Text.byteLength (c :: (firstToken c cs).2.1) + _ = _
      rw [Text.byteLength_cons, Text.byteLength_cons, ← hlen]
      omega
    rw [List.cons_append, tokens, firstToken_append_of_start h]
    simp only
    rw [ih, hlength]
    rfl

end StartsToken

section AtLeader

variable {rest : List Char} (h : AtLeader rest)

include h

theorem AtLeader.startsToken : StartsToken rest := by
  cases rest with
  | nil => exact ⟨rfl, nofun⟩
  | cons r rest =>
    have hl : isLeader r = true := h
    constructor
    · show (isLeader r || isLineBreak r) = true
      rw [hl, Bool.true_or]
    · intro hr
      rw [Option.some.inj hr] at hl
      exact absurd hl (by decide)

/-- A text that begins with a leader has such a token first. -/
theorem head_tokens_leader (offset : Nat) : (tokens offset rest).head?.all (·.kind = .leader) := by
  cases rest with
  | nil => rw [tokens]; rfl
  | cons r rest =>
    have hk : (firstToken r rest).1 = .leader := by rw [firstToken.eq_def, if_pos (show isLeader r = true from h)]
    rw [tokens, List.head?_cons]
    exact decide_eq_true hk

end AtLeader

/-! ## Segments -/

section Steps

variable {t : Token} (ts : List Token)

/-- Blanks and line breaks between segments belong to none. -/
theorem segments_between (h : t.kind = .blank ∨ t.kind = .lineBreak) : segments (t :: ts) = segments ts := by
  rw [segments.eq_def]
  rcases h with h | h
  · simp only [h]
  · simp only [h]

theorem segments_stray (h : t.kind = .value ∨ t.kind = .comma) : segments (t :: ts) =
    strayOf (t :: ts.takeWhile (continues false)) t.start :: segments (ts.dropWhile (continues false)) := by
  rw [segments.eq_def]
  rcases h with h | h
  · simp only [h]
  · simp only [h]

/-- A leader that no value follows. -/
theorem segments_bare (h : t.kind = .leader) (hts : ∀ u ∈ ts.head?, u.kind ≠ .value) :
    segments (t :: ts) = .bare (t.text.headD '^') t.span :: segments ts := by
  rw [segments.eq_def]
  cases ts with
  | nil =>
    simp only [h]
    rw [segments]
  | cons code more => simp only [h, if_neg (hts code rfl)]

end Steps

section Append

variable {us : List Token} (h : us.head?.all (·.kind = .leader))

include h

/-- No body goes on over a leader. -/
theorem head_not_continues (multiline : Bool) : us.head?.all (!continues multiline ·) := by
  cases us with
  | nil => rfl
  | cons u us =>
    have hk : u.kind = .leader := of_decide_eq_true h
    show (!continues multiline u) = true
    rw [continues, hk]
    rfl

theorem head_ne_value : ∀ u ∈ us.head?, u.kind ≠ .value := by
  intro u hu
  have hk : u.kind = .leader := by
    rw [Option.mem_def.1 hu] at h
    exact of_decide_eq_true h
  rw [hk]
  exact TokenKind.noConfusion

/-- **Segments in front of a leader.** -/
theorem segments_append_leader (ts : List Token) : segments (ts ++ us) = segments ts ++ segments us := by
  fun_induction segments ts with
  | case1 => rfl
  | case2 t ts hk ih | case3 t ts hk ih =>
    have hkind : t.kind = .blank ∨ t.kind = .lineBreak := by simp [hk]
    rw [List.cons_append, segments_between _ hkind, ih]
  | case4 t ts hk ih | case5 t ts hk ih =>
    have hkind : t.kind = .value ∨ t.kind = .comma := by simp [hk]
    have hnext := head_not_continues h false
    rw [List.cons_append, segments_stray _ hkind, takeWhile_append_of_head hnext, dropWhile_append_of_head hnext, ih,
      List.cons_append]
  | case6 t hk code more hcode multiline ih =>
    have hnext := head_not_continues h multiline
    rw [List.cons_append, List.cons_append, segments_leader hk hcode]
    show commandOf t code multiline ((more ++ us).takeWhile (continues multiline)) ::
      segments ((more ++ us).dropWhile (continues multiline)) = _
    rw [takeWhile_append_of_head hnext, dropWhile_append_of_head hnext, ih, List.cons_append]
  | case7 t hk code more hcode ih =>
    have hnext : ∀ u ∈ (code :: (more ++ us)).head?, u.kind ≠ .value := by
      intro u hu
      rwa [← Option.some.inj hu]
    rw [List.cons_append, List.cons_append, segments_bare _ hk hnext, ← List.cons_append, ih, List.cons_append]
  | case8 t hk =>
    rw [List.singleton_append, segments_bare _ hk (head_ne_value h)]
    rfl

end Append

/-! ## Events -/

/-- The state after segments. -/
def formatAfter (f : Format) (ss : List Segment) : Format := ss.foldl (fun g s => (s.events g).2) f

/-- **Segments are obeyed in the state that those before them leave.** -/
theorem events_append : ∀ (f : Format) (ss ss' : List Segment),
    events f (ss ++ ss') = events f ss ++ events (formatAfter f ss) ss'
  | _, [], _ => rfl
  | f, s :: ss, ss' => by
    rw [List.cons_append, events, events, events_append (s.events f).2 ss ss', List.append_assoc]
    rfl

/-! ## Moving -/

/-- The token moved on by `k` bytes. -/
def Token.shift (k : Nat) (t : Token) : Token := { t with start := t.start + k }

/-- The segment moved on by `k` bytes. -/
def Segment.shift (k : Nat) : Segment → Segment
  | .bare leader span => .bare leader (span.shift k)
  | .stray text span => .stray text (span.shift k)
  | .command c span => .command c (span.shift k)

theorem tokens_shift (k offset : Nat) (cs : List Char) :
    tokens (offset + k) cs = (tokens offset cs).map (Token.shift k) := by
  fun_induction tokens offset cs with
  | case1 => rw [tokens]; rfl
  | case2 offset c cs t ih =>
    rw [tokens, List.map_cons, ← ih]
    have hstop : Token.stop ⟨(firstToken c cs).1, c :: (firstToken c cs).2.1, offset + k⟩ = t.stop + k :=
      Nat.add_right_comm _ _ _
    simp only [hstop]
    rfl

theorem joined_shift (k : Nat) (ts : List Token) : joined (ts.map (Token.shift k)) = joined ts := by
  rw [joined, List.flatMap_map]
  rfl

theorem continues_shift (k : Nat) (multiline : Bool) :
    continues multiline ∘ Token.shift k = continues multiline := rfl

theorem Token.stop_shift (k : Nat) (t : Token) : (t.shift k).stop = t.stop + k := Nat.add_right_comm _ _ _

theorem Token.span_shift (k : Nat) (t : Token) : (t.shift k).span = t.span.shift k := by
  rw [Token.span, Token.stop_shift]
  rfl

theorem commandOf_shift (k : Nat) (t code : Token) (multiline : Bool) (more : List Token) :
    commandOf (t.shift k) (code.shift k) multiline (more.map (Token.shift k)) =
      (commandOf t code multiline more).shift k := by
  have hspan : (⟨(t.shift k).start, (code.shift k).stop + Text.byteLength (joined more)⟩ : Span) =
      (⟨t.start, code.stop + Text.byteLength (joined more)⟩ : Span).shift k := by
    rw [Token.stop_shift, Nat.add_right_comm]
    rfl
  rw [commandOf, commandOf, joined_shift, hspan]
  rfl

theorem strayOf_shift (k start : Nat) (ts : List Token) :
    strayOf (ts.map (Token.shift k)) (start + k) = (strayOf ts start).shift k := by
  rw [strayOf, strayOf, joined_shift, Nat.add_right_comm]
  rfl

/-- **Tokens that move** are the same segments, moved. -/
theorem segments_shift (k : Nat) (ts : List Token) :
    segments (ts.map (Token.shift k)) = (segments ts).map (Segment.shift k) := by
  fun_induction segments ts with
  | case1 => rw [List.map_nil, segments]; rfl
  | case2 t ts hk ih | case3 t ts hk ih =>
    have hkind : (t.shift k).kind = .blank ∨ (t.shift k).kind = .lineBreak := by simp [Token.shift, hk]
    rw [List.map_cons, segments_between _ hkind, ih]
  | case4 t ts hk ih | case5 t ts hk ih =>
    have hkind : (t.shift k).kind = .value ∨ (t.shift k).kind = .comma := by simp [Token.shift, hk]
    rw [List.map_cons, segments_stray _ hkind, List.takeWhile_map, List.dropWhile_map, continues_shift, ih,
      List.map_cons, ← strayOf_shift]
    rfl
  | case6 t hk code more hcode multiline ih =>
    have hleader : (t.shift k).kind = .leader := hk
    have hvalue : (code.shift k).kind = .value := hcode
    rw [List.map_cons, List.map_cons, segments_leader hleader hvalue]
    show commandOf _ _ multiline ((more.map (Token.shift k)).takeWhile (continues multiline)) ::
      segments ((more.map (Token.shift k)).dropWhile (continues multiline)) = _
    rw [List.takeWhile_map, List.dropWhile_map, continues_shift, ih, commandOf_shift, List.map_cons]
  | case7 t hk code more hcode ih =>
    have hnext : ∀ u ∈ ((code :: more).map (Token.shift k)).head?, u.kind ≠ .value := by
      intro u hu
      rw [← Option.some.inj hu]
      exact hcode
    rw [List.map_cons, segments_bare (t := t.shift k) _ hk hnext, ih, List.map_cons, Token.span_shift]
    rfl
  | case8 t hk =>
    have hnext : ∀ u ∈ ([] : List Token).head?, u.kind ≠ .value := by
      intro u hu
      cases hu
    rw [List.map_singleton, segments_bare (t := t.shift k) _ hk hnext, segments, Token.span_shift]
    rfl

theorem Segment.events_shift (k : Nat) (f : Format) (s : Segment) :
    (s.shift k).events f = ((s.events f).1.map (Event.shift k), (s.events f).2) := by
  cases s with
  | bare leader span => rfl
  | stray text span => rfl
  | command c span =>
    simp only [Segment.shift, Segment.events, List.map_append, List.map_map]
    rfl

/-- **Segments that move** have the same events, moved. -/
theorem events_shift (k : Nat) : ∀ (f : Format) (ss : List Segment),
    events f (ss.map (Segment.shift k)) = (events f ss).map (Event.shift k)
  | _, [] => rfl
  | f, s :: ss => by
    rw [List.map_cons, events, events, Segment.events_shift, events_shift k _ ss, List.map_append]

/-! ## Programs -/

/-- The events of the text at an offset, in a state. -/
def eventsAt (f : Format) (offset : Nat) (text : List Char) : List Event := events f (segments (tokens offset text))

/-- The state after the text. -/
def formatAt (f : Format) (offset : Nat) (text : List Char) : Format := formatAfter f (segments (tokens offset text))

/-- **A text in front of a leader** is obeyed first. -/
theorem eventsAt_append_leader {b : List Char} (h : AtLeader b) (f : Format) (offset : Nat) (a : List Char) :
    eventsAt f offset (a ++ b) =
      eventsAt f offset a ++ eventsAt (formatAt f offset a) (offset + Text.byteLength a) b := by
  rw [eventsAt, tokens_append_of_start h.startsToken, segments_append_leader (head_tokens_leader h _), events_append]
  rfl

/-- The offset moves what is reported and nothing else. -/
theorem eventsAt_shift (f : Format) (k offset : Nat) (text : List Char) :
    eventsAt f (offset + k) text = (eventsAt f offset text).map (Event.shift k) := by
  rw [eventsAt, tokens_shift, segments_shift, events_shift]
  rfl

end ThermalLabel.Zpl

import ThermalLabel.Proofs.Text.Tiling
import ThermalLabel.Proofs.Zpl.Kind
import ThermalLabel.Proofs.Zpl.Skip

/-!
# Turns of the scanner

The scanner goes through the tokens in turns. Each turn takes some of them and makes one segment of what it takes, or
leaves out a blank. Since no turn takes nothing, **the loop ends**, after as many turns as there are tokens or fewer
(`turns_eq`). Said of characters, `Takes` is the rule for the end of each segment, and `takes_turn` that a turn follows
it. By one induction over the turns (`segments_induction`) the segments of a program

* tile it (`tiled_segments`);
* are each a command, a bare leader or a stray run that goes as far as it can (`located_segments`).
-/

namespace ThermalLabel.Zpl

/-! ## The loop -/

/-- What one turn makes of the tokens: a segment, unless it leaves out a blank, and the tokens left. -/
def turn (t : Token) (ts : List Token) : Option Segment × List Token :=
  match t.kind with
  | .blank | .lineBreak => (none, ts)
  | .value | .comma =>
    (some (strayOf (t :: ts.takeWhile (continues false)) t.start), ts.dropWhile (continues false))
  | .leader =>
    match ts with
    | code :: more =>
      if code.kind = .value then
        let multiline := Verb.isMultiline (Verb.of? (Leader.ofText t.text) (headOf code.text))
        (some (commandOf t code multiline (more.takeWhile (continues multiline))), more.dropWhile (continues multiline))
      else (some (.bare (t.text.headD '^') t.span), code :: more)
    | [] => (some (.bare (t.text.headD '^') t.span), [])

/-- The segments of at most `n` turns, and the tokens left. -/
def turns : Nat → List Token → List Segment × List Token
  | 0, ts => ([], ts)
  | _ + 1, [] => ([], [])
  | n + 1, t :: ts =>
    let others := turns n (turn t ts).2
    ((turn t ts).1.toList ++ others.1, others.2)

section Turn

variable (t : Token) (ts : List Token)

/-- The segments of a program are those of one turn and then those of the tokens left. -/
theorem segments_turn : segments (t :: ts) = (turn t ts).1.toList ++ segments (turn t ts).2 := by
  unfold turn
  cases hk : t.kind with
  | blank | lineBreak => exact segments_between ts (by simp [hk])
  | value | comma => exact segments_stray ts (by simp [hk])
  | leader =>
    cases ts with
    | nil => exact segments_bare [] hk nofun
    | cons code more =>
      by_cases hcode : code.kind = .value
      · simp only [if_pos hcode]
        exact segments_leader hk hcode more
      · simp only [if_neg hcode]
        refine segments_bare (code :: more) hk ?_
        intro u hu
        rw [← Option.some.inj hu]
        exact hcode

/-- **A turn takes at least one token.** -/
theorem suffix_turn : (turn t ts).2 <:+ ts := by
  unfold turn
  split
  · exact List.suffix_refl _
  · exact List.suffix_refl _
  · exact List.dropWhile_suffix _
  · exact List.dropWhile_suffix _
  · split
    · split
      · exact (List.dropWhile_suffix _).trans (List.suffix_cons _ _)
      · exact List.suffix_refl _
    · exact List.suffix_refl _

end Turn

/-- **The loop ends**: it leaves no token after as many turns as there are tokens. -/
theorem turns_eq : ∀ {n : Nat} {ts : List Token}, ts.length ≤ n → turns n ts = (segments ts, [])
  | 0, [], _ | _ + 1, [], _ => by rw [turns, segments]
  | n + 1, t :: ts, h => by
    have hlength := (suffix_turn t ts).length_le
    have hrest : turns n (turn t ts).2 = (segments (turn t ts).2, []) := by
      apply turns_eq
      rw [List.length_cons] at h
      omega
    rw [turns, hrest, segments_turn]

/-! ## What a turn takes -/

/-- The command of a leader and the text after it. Line breaks at the end of field data belong to no body. -/
def Command.ofRun (leader : Leader) (text : List Char) : Command :=
  let c := Command.ofText leader text
  { c with body := if c.isMultiline then Text.dropRightWhile isLineBreak c.body else c.body }

/-- The text of a command behind its leader, as far as it goes: to the next leader, or to the end of the line. -/
structure IsCommandRun (leader : Leader) (text rest : List Char) : Prop where
  begins : text.head?.any beginsValue
  noLeader : ∀ c ∈ text, isLeader c = false
  oneLine : (Command.ofRun leader text).isMultiline = false → ∀ c ∈ text, isLineBreak c = false
  stops : (Command.ofRun leader text).Stops rest

/-- Text outside of commands, as far as it goes: to the next leader or the end of the line. -/
structure IsStrayRun (text rest : List Char) : Prop where
  begins : text.head?.any fun c => beginsValue c || c == ','
  inner : Inner text
  stops : AtBoundary rest

/-- What a turn at an offset takes from a program in front of the rest of it, and what it makes of that. -/
inductive Takes (offset : Nat) : List Char → List Char → Option Segment → Prop
  | blank {run rest : List Char} : run ≠ [] → (∀ c ∈ run, Text.isBlank c = true) → Takes offset run rest none
  | bare {leader : Char} {rest : List Char} : isLeader leader = true → rest.head?.any beginsValue = false →
      Takes offset [leader] rest (some (.bare leader ⟨offset, offset + 1⟩))
  | stray {run rest : List Char} : IsStrayRun run rest →
      Takes offset run rest
        (some (.stray (Text.trimRight run) ⟨offset, offset + Text.byteLength (Text.trimRight run)⟩))
  | command {leader : Leader} {text rest : List Char} : IsCommandRun leader text rest →
      Takes offset (leader.char :: text) rest
        (some (.command (Command.ofRun leader text) ⟨offset, offset + Text.byteLength (leader.char :: text)⟩))

/-- Something is taken. -/
theorem Takes.run_ne_nil {offset : Nat} {run rest : List Char} {s : Option Segment} (h : Takes offset run rest s) :
    run ≠ [] := by
  cases h with
  | blank hne _ => exact hne
  | bare _ _ => exact List.cons_ne_nil _ _
  | stray hstray =>
    rintro rfl
    exact absurd hstray.begins (by simp)
  | command _ => exact List.cons_ne_nil _ _

/-! ## A turn takes what it should -/

section Joined

variable {ts : List Token} (h : ∀ t ∈ ts, t.Fits)

include h

/-- The text of tokens begins as the first of them. -/
theorem head_joined : (joined ts).head? = ts.head?.bind fun t => t.text.head? := by
  cases ts with
  | nil => rfl
  | cons t ts =>
    obtain ⟨c, cs, hc⟩ := List.exists_cons_of_ne_nil (h t List.mem_cons_self).text_ne_nil
    rw [joined_cons, hc, List.cons_append, List.head?_cons, List.head?_cons, Option.bind_some, hc, List.head?_cons]

/-- Only a leader, or a line break after a body on one line, follows what goes on a body. -/
theorem head_after_continues (multiline : Bool) : ∀ c ∈ (joined (ts.dropWhile (continues multiline))).head?,
    isLeader c = true ∨ isLineBreak c = true ∧ multiline = false := by
  have hrest : ∀ t ∈ ts.dropWhile (continues multiline), t.Fits := fun t ht =>
    h t ((List.dropWhile_suffix _).subset ht)
  have hstop := List.head?_dropWhile_not (continues multiline) ts
  rw [head_joined hrest]
  cases hd : (ts.dropWhile (continues multiline)).head? with
  | none => exact nofun
  | some u =>
    rw [hd] at hstop
    have hfits := hrest u (List.mem_of_mem_head? hd)
    intro c hc
    have hmem : c ∈ u.text := List.mem_of_mem_head? hc
    have hu : continues multiline u = false := hstop
    rw [continues, Bool.and_eq_false_iff, Bool.or_eq_false_iff, bne_eq_false_iff_eq, bne_eq_false_iff_eq] at hu
    rcases hu with hk | ⟨hm, hk⟩
    · unfold Token.Fits at hfits
      rw [hk] at hfits
      obtain ⟨d, hd, htext⟩ := hfits
      rw [htext, List.mem_singleton] at hmem
      rw [hmem]
      exact .inl hd
    · exact .inr ⟨hfits.isLineBreak hk c hmem, hm⟩

/-- No leader is in what goes on a body, and no line break if the body is on one line. -/
theorem joined_continues (multiline : Bool) : ∀ c ∈ joined (ts.takeWhile (continues multiline)),
    isLeader c = false ∧ (multiline = false → isLineBreak c = false) := by
  intro c hc
  obtain ⟨u, hu, hmem⟩ := List.mem_flatMap.1 hc
  have hfits := h u ((List.takeWhile_prefix _).subset hu)
  have hcontinues : continues multiline u = true := List.all_eq_true.1 List.all_takeWhile u hu
  rw [continues, Bool.and_eq_true, Bool.or_eq_true, bne_iff_ne, bne_iff_ne] at hcontinues
  obtain ⟨hk, hk'⟩ := hcontinues
  refine ⟨hfits.isLeader_eq_false hk c hmem, ?_⟩
  rintro rfl
  have hbreak : u.kind ≠ .lineBreak := hk'.resolve_left Bool.false_ne_true
  exact (Bool.or_eq_false_iff.1 (hfits.inner hk hbreak c hmem)).2

end Joined

theorem char_ofText {c : Char} (h : isLeader c = true) : (Leader.ofText [c]).char = c := by
  rw [isLeader, Bool.or_eq_true, beq_iff_eq, beq_iff_eq] at h
  rcases h with rfl | rfl
  · rfl
  · rfl

theorem utf8Size_of_isLeader {c : Char} (h : isLeader c = true) : c.utf8Size = 1 := by
  rw [isLeader, Bool.or_eq_true, beq_iff_eq, beq_iff_eq] at h
  rcases h with rfl | rfl
  · rfl
  · rfl

section Taken

variable {offset : Nat} {cs : List Char} {t code : Token} {ts : List Token}

/-- A value or a comma begins a stray run. -/
theorem takes_stray (h : tokens offset cs = t :: ts) (hk : t.kind = .value ∨ t.kind = .comma) :
    Takes offset (joined (t :: ts.takeWhile (continues false))) (joined (ts.dropWhile (continues false)))
      (some (strayOf (t :: ts.takeWhile (continues false)) t.start)) := by
  have hfits : ∀ u ∈ t :: ts, u.Fits := by
    rw [← h]
    exact fits_of_mem_tokens offset cs
  have hts : ∀ u ∈ ts, u.Fits := fun u hu => hfits u (List.mem_cons_of_mem _ hu)
  have ht := hfits t List.mem_cons_self
  rw [(tokens_tail h).1]
  refine .stray ⟨?_, ?_, ?_⟩
  · obtain ⟨c, rest, hc⟩ := List.exists_cons_of_ne_nil ht.text_ne_nil
    rw [joined_cons, hc]
    show (beginsValue c || c == ',') = true
    unfold Token.Fits at ht
    rcases hk with hk | hk
    · rw [hk, hc] at ht
      have hbegins : beginsValue c = true := ht.1
      rw [hbegins, Bool.true_or]
    · rw [hk, hc] at ht
      obtain ⟨rfl, -⟩ := List.cons.inj ht
      decide
  · rw [joined_cons]
    refine Inner.append ?_ ?_
    · apply ht.inner
      · rcases hk with hk | hk <;> simp [hk]
      · rcases hk with hk | hk <;> simp [hk]
    · intro c hc
      obtain ⟨hleader, hbreak⟩ := joined_continues hts false c hc
      exact Bool.or_eq_false_iff.2 ⟨hleader, hbreak rfl⟩
  · have hhead := head_after_continues hts false
    cases hr : (joined (ts.dropWhile (continues false))).head? with
    | none =>
      rw [AtBoundary, hr]
      rfl
    | some c =>
      rw [AtBoundary, hr]
      show (isLeader c || isLineBreak c) = true
      rcases hhead c hr with hleader | ⟨hbreak, -⟩
      · rw [hleader, Bool.true_or]
      · rw [hbreak, Bool.or_true]

/-- A leader that no value follows stands alone. -/
theorem takes_bare (h : tokens offset cs = t :: ts) (hk : t.kind = .leader) (hts : ∀ u ∈ ts.head?, u.kind ≠ .value) :
    Takes offset (joined [t]) (joined ts) (some (.bare (t.text.headD '^') t.span)) := by
  have hfits : ∀ u ∈ t :: ts, u.Fits := by
    rw [← h]
    exact fits_of_mem_tokens offset cs
  have ht := hfits t List.mem_cons_self
  unfold Token.Fits at ht
  rw [hk] at ht
  obtain ⟨c, hc, htext⟩ := ht
  have hspan : t.span = ⟨offset, offset + 1⟩ := by
    rw [Token.span, Token.stop, htext, (tokens_tail h).1, Text.byteLength_cons, Text.byteLength_nil,
      utf8Size_of_isLeader hc]
  rw [joined_singleton, htext, hspan]
  refine .bare hc ?_
  rw [head_joined fun u hu => hfits u (List.mem_cons_of_mem _ hu)]
  cases hu : ts.head? with
  | none => rfl
  | some u => exact (hfits u (List.mem_cons_of_mem _ (List.mem_of_mem_head? hu))).beginsValue_eq_false (hts u hu)

/-- The code of a command ends where no value goes on. -/
theorem Command.ofText_append (leader : Leader) {code rest : List Char} (hcode : ∀ c ∈ code, isValueChar c = true)
    (hrest : rest.head?.all (!isValueChar ·)) :
    Command.ofText leader (code ++ rest) = ⟨leader, headOf code, code.drop (headLength code) ++ rest⟩ := by
  have htake : (code ++ rest).takeWhile isValueChar = code := by
    rw [takeWhile_append_of_head hrest, List.takeWhile_eq_self_iff.2 hcode]
  have hdrop : (code ++ rest).dropWhile isValueChar = rest := by
    rw [dropWhile_append_of_head hrest, List.dropWhile_eq_nil_iff.2 hcode, List.nil_append]
  rw [Command.ofText, htake, hdrop]

/-- A code and the body behind it are the run of a command. -/
theorem isCommandRun_append (leader : Leader) {code body rest : List Char} (hbegins : code.head?.any beginsValue)
    (hcode : ∀ c ∈ code, isValueChar c = true) (hbody : body.head?.all (!isValueChar ·))
    (hinner : ∀ c ∈ body, isLeader c = false ∧
      (Verb.isMultiline (Verb.of? leader (headOf code)) = false → isLineBreak c = false))
    (hrest : ∀ c ∈ rest.head?, isLeader c = true ∨
      isLineBreak c = true ∧ Verb.isMultiline (Verb.of? leader (headOf code)) = false) :
    IsCommandRun leader (code ++ body) rest := by
  have hmultiline : (Command.ofRun leader (code ++ body)).isMultiline =
      Verb.isMultiline (Verb.of? leader (headOf code)) := by
    rw [Command.isMultiline, Command.ofRun, Command.ofText_append leader hcode hbody]
  have hboundary : ∀ c ∈ code, isLeader c = false ∧ isLineBreak c = false := fun c hc =>
    Bool.or_eq_false_iff.1 (isBoundary_of_isValueChar (hcode c hc))
  constructor
  case begins =>
    cases code with
    | nil => exact absurd hbegins (by simp)
    | cons c cs => exact hbegins
  case noLeader =>
    intro c hc
    rcases List.mem_append.1 hc with hc | hc
    · exact (hboundary c hc).1
    · exact (hinner c hc).1
  case oneLine =>
    intro hm c hc
    rw [hmultiline] at hm
    rcases List.mem_append.1 hc with hc | hc
    · exact (hboundary c hc).2
    · exact (hinner c hc).2 hm
  case stops =>
    intro c hc
    rw [hmultiline]
    exact hrest c hc

/-- A code goes as far as it can, also if the body does not go to the end. -/
theorem head_body {more : List Token} (h : tokens offset cs = code :: more) (hk : code.kind = .value)
    (p : Token → Bool) : (joined (more.takeWhile p)).head?.all (!isValueChar ·) := by
  have hall := head_after_value h hk
  rw [← List.takeWhile_append_dropWhile (p := p) (l := more), joined_append] at hall
  cases hb : joined (more.takeWhile p) with
  | nil => rfl
  | cons d ds =>
    rw [hb] at hall
    exact hall

/-- A leader and a value begin a command. -/
theorem takes_command {more : List Token} (h : tokens offset cs = t :: code :: more) (hk : t.kind = .leader)
    (hcode : code.kind = .value) :
    let multiline := Verb.isMultiline (Verb.of? (Leader.ofText t.text) (headOf code.text))
    Takes offset (joined (t :: code :: more.takeWhile (continues multiline)))
      (joined (more.dropWhile (continues multiline)))
      (some (commandOf t code multiline (more.takeWhile (continues multiline)))) := by
  intro multiline
  have hfits : ∀ u ∈ t :: code :: more, u.Fits := by
    rw [← h]
    exact fits_of_mem_tokens offset cs
  have hmore : ∀ u ∈ more, u.Fits := fun u hu => hfits u (List.mem_cons_of_mem _ (List.mem_cons_of_mem _ hu))
  have ht := hfits t List.mem_cons_self
  have hvalue := hfits code (List.mem_cons_of_mem _ List.mem_cons_self)
  unfold Token.Fits at ht hvalue
  rw [hk] at ht
  rw [hcode] at hvalue
  obtain ⟨c, hc, htext⟩ := ht
  obtain ⟨hbegins, hvalue⟩ := hvalue
  obtain ⟨hstart, -, htail⟩ := tokens_tail h
  obtain ⟨hcodeStart, -, -⟩ := tokens_tail htail.symm
  let leader := Leader.ofText t.text
  let body := joined (more.takeWhile (continues multiline))
  have hleader : t.text = [leader.char] := by
    show t.text = [(Leader.ofText t.text).char]
    rw [htext, char_ofText hc]
  have hbody : body.head?.all (!isValueChar ·) := head_body htail.symm hcode _
  have hsegment : commandOf t code multiline (more.takeWhile (continues multiline)) =
      .command (Command.ofRun leader (code.text ++ body))
        ⟨offset, offset + Text.byteLength (leader.char :: (code.text ++ body))⟩ := by
    have hstop : code.stop + Text.byteLength body =
        offset + Text.byteLength (leader.char :: (code.text ++ body)) := by
      rw [Token.stop, hcodeStart, Token.stop, hleader, hstart, Text.byteLength_cons, Text.byteLength_cons,
        Text.byteLength_append, Text.byteLength_nil]
      omega
    rw [← hstop, ← hstart, Command.ofRun, Command.ofText_append leader hvalue hbody]
    rfl
  have hrun : joined (t :: code :: more.takeWhile (continues multiline)) = leader.char :: (code.text ++ body) := by
    rw [joined_cons, joined_cons, hleader]
    rfl
  rw [hsegment, hrun]
  exact .command (isCommandRun_append leader hbegins hvalue hbody (joined_continues hmore multiline)
    (head_after_continues hmore multiline))

/-- **A turn takes what it should**, and leaves the tokens of the rest. -/
theorem takes_turn (h : tokens offset cs = t :: ts) : ∃ run rest, cs = run ++ rest ∧
    Takes offset run rest (turn t ts).1 ∧ (turn t ts).2 = tokens (offset + Text.byteLength run) rest := by
  -- it is enough to tell which tokens are taken
  have hsplit : ∀ (taken left : List Token) {s : Option Segment}, t :: ts = taken ++ left →
      Takes offset (joined taken) (joined left) s → ∃ run rest, cs = run ++ rest ∧ Takes offset run rest s ∧
        left = tokens (offset + Text.byteLength run) rest := by
    intro taken left s htaken htakes
    rw [htaken] at h
    obtain ⟨hcs, hleft⟩ := tokens_rest h
    exact ⟨joined taken, joined left, hcs, htakes, hleft⟩
  have ht : t.Fits := by
    refine fits_of_mem_tokens offset cs t ?_
    rw [h]
    exact List.mem_cons_self
  unfold turn
  cases hk : t.kind with
  | blank | lineBreak =>
    refine hsplit [t] ts rfl ?_
    rw [joined_singleton]
    exact .blank ht.text_ne_nil (ht.isBlank (by simp [hk]))
  | value | comma =>
    refine hsplit _ _ ?_ (takes_stray h (by simp [hk]))
    rw [List.cons_append, List.takeWhile_append_dropWhile]
  | leader =>
    cases ts with
    | nil => exact hsplit [t] [] rfl (takes_bare h hk nofun)
    | cons code more =>
      by_cases hcode : code.kind = .value
      · simp only [if_pos hcode]
        refine hsplit _ _ ?_ (takes_command h hk hcode)
        rw [List.cons_append, List.cons_append, List.takeWhile_append_dropWhile]
      · simp only [if_neg hcode]
        refine hsplit [t] (code :: more) rfl (takes_bare h hk ?_)
        intro u hu
        rw [← Option.some.inj hu]
        exact hcode

end Taken

/-! ## All turns -/

/-- What holds of no text and is kept by each turn holds of the segments of every text. -/
theorem segments_induction {P : List Char → List Char → List Segment → Prop} (hnil : ∀ before, P before [] [])
    (hturn : ∀ {before run rest : List Char} {s : Option Segment} {ss : List Segment},
      Takes (Text.byteLength before) run rest s → P (before ++ run) rest ss → P before (run ++ rest) (s.toList ++ ss))
    (before cs : List Char) : P before cs (segments (tokens (Text.byteLength before) cs)) := by
  induction hn : cs.length using Nat.strong_induction_on generalizing before cs with
  | _ n ih =>
    cases h : tokens (Text.byteLength before) cs with
    | nil =>
      have hcs : cs = [] := by
        rw [← tokens_text (Text.byteLength before) cs, h]
        rfl
      rw [hcs, segments]
      exact hnil before
    | cons t ts =>
      obtain ⟨run, rest, hcs, htakes, hleft⟩ := takes_turn h
      have hlength := List.length_pos_iff.2 htakes.run_ne_nil
      rw [segments_turn, hleft, hcs, ← Text.byteLength_append]
      apply hturn htakes
      refine ih rest.length ?_ (before ++ run) rest rfl
      rw [← hn, hcs, List.length_append]
      omega

/-- One turn goes on a tiling. -/
theorem Takes.tiled {before run rest : List Char} {s : Option Segment} {ss : List Span}
    (h : Takes (Text.byteLength before) run rest s) (hrest : Text.Tiled (before ++ run) rest ss) :
    Text.Tiled before (run ++ rest) ((s.map Segment.span).toList ++ ss) := by
  have hne := h.run_ne_nil
  -- most units have no blanks at the end
  have hall : ∀ span : Span, span = ⟨Text.byteLength before, Text.byteLength before + Text.byteLength run⟩ →
      Text.Tiled before (run ++ rest) (span :: ss) := by
    rintro span rfl
    have hunit : Text.Tiled before (run ++ [] ++ rest) (_ :: ss) :=
      .unit (by rwa [List.append_nil]) nofun (by rwa [List.append_nil])
    rwa [List.append_nil] at hunit
  cases h with
  | blank _ hblank => exact .gap hblank hrest
  | bare hleader _ =>
    apply hall
    rw [Text.byteLength_cons, utf8Size_of_isLeader hleader, Text.byteLength_nil]
    rfl
  | stray _ =>
    obtain ⟨gap, hgap, hblank⟩ := Text.exists_dropRightWhile Text.isBlank run
    have hunit : Text.Tiled before (Text.trimRight run ++ gap ++ rest) (_ :: ss) :=
      .unit (by rwa [Text.trimRight, ← hgap]) hblank (by rwa [Text.trimRight, ← hgap])
    rwa [Text.trimRight, ← hgap] at hunit
  | command _ => exact hall _ rfl

/-- **The segments tile the program.** -/
theorem tiled_segments (program : List Char) :
    Text.Tiled [] program ((segments (tokens 0 program)).map Segment.span) := by
  refine segments_induction (P := fun before cs ss => Text.Tiled before cs (ss.map Segment.span)) (fun _ => .nil) ?_
    [] program
  intro before run rest s ss htakes hrest
  have htiled := htakes.tiled hrest
  cases s with
  | none => exact htiled
  | some s => exact htiled

/-- A segment of a program is what a turn takes from it. -/
def Segment.Located (program : List Char) (s : Segment) : Prop :=
  ∃ before run rest, program = before ++ (run ++ rest) ∧ Takes (Text.byteLength before) run rest (some s)

/-- **Each segment is a command, a bare leader or a stray run** and goes as far as it can. -/
theorem located_segments (program : List Char) : ∀ s ∈ segments (tokens 0 program), s.Located program := by
  refine segments_induction (P := fun before cs ss => ∀ s ∈ ss, s.Located (before ++ cs)) ?_ ?_ [] program
  · intro before s hs
    cases hs
  · intro before run rest s ss htakes hrest x hx
    rcases List.mem_append.1 hx with hx | hx
    · obtain rfl := Option.mem_toList.1 hx
      exact ⟨before, run, rest, rfl, htakes⟩
    · rw [← List.append_assoc]
      exact hrest x hx

end ThermalLabel.Zpl

import ThermalLabel.Proofs.Zpl.Append
import ThermalLabel.Proofs.Zpl.Bytes

/-!
# Segments cut at offsets

A scanner that keeps the offsets of its tokens cuts stray text and the heads and bodies of commands out of the program.
Each of these cuts is checked here, and so is each span that is marked. Since tokens stand without a gap behind what was
read before them (`Remains`), **no cut and no span fails**, and the segments are those of the program
(`cutSegments_eq`).
-/

namespace ThermalLabel.Zpl

/-! ## What remains of a program -/

/-- The tokens are those of what remains of a program behind the text before them. -/
structure Remains (program before : List Char) (ts : List Token) : Prop where
  text : program = before ++ joined ts
  tile : Tile (Text.byteLength before) ts (Text.byteLength program)

/-- Where the tokens start: the end of the program if there are none. -/
def startOf (program : List Char) (ts : List Token) : Nat :=
  match ts with
  | [] => Text.byteLength program
  | t :: _ => t.start

theorem remains_tokens (program : List Char) : Remains program [] (tokens 0 program) := by
  constructor
  · exact (tokens_text 0 program).symm
  · have htile := tokens_tile 0 program
    rw [Nat.zero_add] at htile
    exact htile

namespace Remains

variable {program before : List Char} {ts us : List Token}

theorem startOf_eq (h : Remains program before ts) : startOf program ts = Text.byteLength before := by
  cases ts with
  | nil => exact h.tile.symm
  | cons t ts => exact h.tile.1

/-- After the first token the others remain. -/
theorem tail {t : Token} (h : Remains program before (t :: ts)) : Remains program (before ++ t.text) ts := by
  obtain ⟨htext, hstart, htile⟩ := h
  constructor
  · rw [htext, List.append_assoc]
    rfl
  · rw [Text.byteLength_append, ← hstart]
    exact htile

/-- After tokens are taken the rest of them remains. -/
theorem append (h : Remains program before (ts ++ us)) : Remains program (before ++ joined ts) us := by
  induction ts generalizing before with
  | nil =>
    rw [joined, List.flatMap_nil, List.append_nil]
    exact h
  | cons t ts ih =>
    have hrest := ih h.tail
    rw [List.append_assoc] at hrest
    exact hrest

/-- The tokens that are taken are cut out of the program. -/
theorem slice?_eq (h : Remains program before (ts ++ us)) :
    Text.slice? program ⟨Text.byteLength before, startOf program us⟩ = some (joined ts) := by
  have hrest := h.append
  rw [hrest.startOf_eq, Text.byteLength_append, hrest.text]
  exact Text.slice?_append before (joined ts) (joined us)

end Remains

/-! ## Segments -/

/-- A leader that no value follows. -/
def cutBare (t : Token) : Option Segment := do
  return .bare (t.text.headD '^') (← (Span.between t.start t.stop).toOption)

/-- Stray text from a token up to an offset. -/
def cutStray (program : List Char) (t : Token) (stop : Nat) : Option Segment := do
  let text := Text.trimRight (← Text.slice? program ⟨t.start, stop⟩)
  return .stray text (← (Span.between t.start (t.start + Text.byteLength text)).toOption)

/-- The head of a command and the offset of what follows it. -/
def cutHead (code : Token) : Option (List Char × Nat) := do
  let length := Text.byteLength (code.text.take (headLength code.text))
  return (Text.upper (← Text.slice? code.text ⟨0, length⟩), code.start + length)

/-- The command of a leader and a head whose body is between two offsets. -/
def cutCommand (program : List Char) (t : Token) (head : List Char) (multiline : Bool) (start stop : Nat) :
    Option Segment := do
  let span ← (Span.between t.start stop).toOption
  let whole ← Text.slice? program ⟨start, stop⟩
  let body := if multiline then Text.dropRightWhile isLineBreak whole else whole
  return .command ⟨Leader.ofText t.text, head, body⟩ span

/-- The segments of a list of tokens, cut out of the program. -/
def cutSegments (program : List Char) : List Token → Option (List Segment)
  | [] => some []
  | t :: ts =>
    match t.kind with
    | .blank | .lineBreak => cutSegments program ts
    | .value | .comma => do
      let rest := ts.dropWhile (continues false)
      let s ← cutStray program t (startOf program rest)
      return s :: (← cutSegments program rest)
    | .leader =>
      match ts with
      | code :: more =>
        if code.kind = .value then do
          let (head, start) ← cutHead code
          let multiline := Verb.isMultiline (Verb.of? (Leader.ofText t.text) head)
          let rest := more.dropWhile (continues multiline)
          let s ← cutCommand program t head multiline start (startOf program rest)
          return s :: (← cutSegments program rest)
        else do
          let s ← cutBare t
          return s :: (← cutSegments program (code :: more))
      | [] => return [← cutBare t]
termination_by ts => ts.length
decreasing_by
  all_goals simp only [List.length_cons]
  · omega
  · exact Nat.lt_succ_of_le (List.dropWhile_sublist _).length_le
  · exact Nat.lt_succ_of_lt (Nat.lt_succ_of_le (List.dropWhile_sublist _).length_le)
  · omega

theorem between_eq {start stop : Nat} (h : start ≤ stop) : Span.between start stop = .ok ⟨start, stop⟩ := if_pos h

theorem cutBare_eq (t : Token) : cutBare t = some (.bare (t.text.headD '^') t.span) := by
  have hspan : Span.between t.start t.stop = .ok t.span := between_eq (Nat.le_add_right _ _)
  rw [cutBare, hspan]
  rfl

theorem cutHead_eq (code : Token) : cutHead code =
    some (headOf code.text, code.start + Text.byteLength (code.text.take (headLength code.text))) := by
  have hslice := Text.slice?_append [] (code.text.take (headLength code.text)) (code.text.drop (headLength code.text))
  rw [List.nil_append, List.take_append_drop, Text.byteLength_nil, Nat.zero_add] at hslice
  rw [cutHead]
  simp only [hslice]
  rfl

section Segments

variable {program before : List Char} {t code : Token} {taken rest : List Token}

theorem cutStray_eq (h : Remains program before (t :: taken ++ rest)) :
    cutStray program t (startOf program rest) = some (strayOf (t :: taken) t.start) := by
  have hstart : t.start = Text.byteLength before := h.tile.1
  rw [cutStray, hstart, h.slice?_eq]
  simp only [Option.bind_eq_bind, Option.bind_some]
  rw [between_eq (Nat.le_add_right _ _)]
  rfl

theorem startOf_command (h : Remains program before (t :: code :: taken ++ rest)) :
    startOf program rest = code.stop + Text.byteLength (joined taken) := by
  have hcode : code.start = Text.byteLength (before ++ t.text) := h.tail.tile.1
  have hrest : startOf program rest = Text.byteLength (before ++ t.text ++ code.text ++ joined taken) :=
    h.tail.tail.append.startOf_eq
  rw [hrest, Text.byteLength_append, Text.byteLength_append, ← hcode]
  rfl

/-- The body of a command is cut out behind the head. -/
theorem slice?_body (h : Remains program before (t :: code :: taken ++ rest)) (n : Nat) :
    Text.slice? program ⟨code.start + Text.byteLength (code.text.take n), startOf program rest⟩ =
      some (code.text.drop n ++ joined taken) := by
  have hcode : code.start = Text.byteLength (before ++ t.text) := h.tail.tile.1
  have htext : program = before ++ t.text ++ code.text.take n ++ (code.text.drop n ++ joined taken) ++ joined rest := by
    have hprogram := h.tail.tail.append.text
    rw [List.append_assoc _ (code.text.take n), ← List.append_assoc (code.text.take n), List.take_append_drop]
    simpa only [List.append_assoc] using hprogram
  have hstop : startOf program rest = Text.byteLength (before ++ t.text ++ code.text.take n) +
      Text.byteLength (code.text.drop n ++ joined taken) := by
    rw [h.tail.tail.append.startOf_eq, ← Text.byteLength_append, List.append_assoc _ (code.text.take n),
      ← List.append_assoc (code.text.take n), List.take_append_drop]
    simp only [List.append_assoc]
  refine Text.slice?_eq_some_iff.2 ⟨before ++ t.text ++ code.text.take n, joined rest, htext, ?_⟩
  rw [hcode, ← Text.byteLength_append, hstop]

theorem cutCommand_eq (h : Remains program before (t :: code :: taken ++ rest)) (multiline : Bool) :
    cutCommand program t (headOf code.text) multiline
        (code.start + Text.byteLength (code.text.take (headLength code.text))) (startOf program rest) =
      some (commandOf t code multiline taken) := by
  have hle : t.start ≤ startOf program rest := by
    have hstart : t.start = Text.byteLength before := h.tile.1
    rw [hstart, h.append.startOf_eq, Text.byteLength_append]
    omega
  rw [cutCommand, between_eq hle, slice?_body h, startOf_command h]
  rfl

end Segments

/-- **The segments of what remains of a program** are cut out of it, and no cut fails. -/
theorem cutSegments_eq (program : List Char) (ts : List Token) : ∀ before : List Char, Remains program before ts →
    cutSegments program ts = some (segments ts) := by
  fun_induction segments ts with
  | case1 =>
    intro before _
    rw [cutSegments]
  | case2 t ts hk ih | case3 t ts hk ih =>
    intro before h
    rw [cutSegments.eq_def]
    simp only [hk]
    exact ih _ h.tail
  | case4 t ts hk ih | case5 t ts hk ih =>
    intro before h
    rw [← List.takeWhile_append_dropWhile (p := continues false) (l := ts), ← List.cons_append] at h
    rw [cutSegments.eq_def]
    simp only [hk, cutStray_eq h, ih _ h.append]
    rfl
  | case6 t hk code more hcode multiline ih =>
    intro before h
    rw [← List.takeWhile_append_dropWhile (p := continues multiline) (l := more), ← List.cons_append,
      ← List.cons_append] at h
    rw [cutSegments.eq_def]
    simp only [hk, if_pos hcode, cutHead_eq, Option.bind_eq_bind, Option.bind_some]
    exact Option.bind_eq_some_iff.2 ⟨_, cutCommand_eq h multiline, Option.bind_eq_some_iff.2 ⟨_, ih _ h.append, rfl⟩⟩
  | case7 t hk code more hcode ih =>
    intro before h
    rw [cutSegments.eq_def]
    simp only [hk, if_neg hcode, cutBare_eq, ih _ h.tail]
    rfl
  | case8 t hk =>
    intro before h
    rw [cutSegments.eq_def]
    simp only [hk, cutBare_eq]
    rfl

end ThermalLabel.Zpl

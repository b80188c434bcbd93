import ThermalLabel.Proofs.Number.Word
import ThermalLabel.Proofs.Zpl.Token
import ThermalLabel.Zpl.Drawing
import ThermalLabel.Zpl.Segment

/-!
# Written commands are read back

A command whose body holds neither leaders nor line breaks is one segment wherever a boundary follows it
(`segments_command`). So a line of such commands is read as these commands, each with the bytes it was written at
(`segments_line`). Field data goes on over line breaks, and so must not be the last on its line.
-/

namespace ThermalLabel.Zpl

/-! ## Heads -/

/-- A capital letter or a digit. -/
def isHeadChar (c : Char) : Bool := c.isUpper || c.isDigit

/-- A head that is read as it is written. Only a font command has a head of one character. -/
def IsHead : List Char → Prop
  | [a] => a = 'A'
  | [a, b] => a ≠ 'A' ∧ isHeadChar a ∧ isHeadChar b
  | _ => False

instance : DecidablePred IsHead
  | [] => inferInstanceAs (Decidable False)
  | [a] => inferInstanceAs (Decidable (a = 'A'))
  | [a, b] => inferInstanceAs (Decidable (a ≠ 'A' ∧ isHeadChar a ∧ isHeadChar b))
  | _ :: _ :: _ :: _ => inferInstanceAs (Decidable False)

theorem toNat_of_isHeadChar {c : Char} (h : isHeadChar c = true) :
    48 ≤ c.toNat ∧ c.toNat ≤ 57 ∨ 65 ≤ c.toNat ∧ c.toNat ≤ 90 := by
  rw [isHeadChar, Bool.or_eq_true] at h
  rcases h with h | h
  · unfold Char.isUpper at h
    exact .inr (by simpa [UInt32.le_iff_toNat_le] using h)
  · exact .inl (toNat_of_isDigit h)

theorem toUpper_of_isHeadChar {c : Char} (h : isHeadChar c = true) : c.toUpper = c := by
  have hc := toNat_of_isHeadChar h
  unfold Char.toUpper
  refine dif_neg fun hl => ?_
  have hlower : 97 ≤ c.toNat := hl.1
  omega

/-- A character of a head begins or goes on a value. -/
theorem isValueChar_of_isHeadChar {c : Char} (h : isHeadChar c = true) :
    isValueChar c = true ∧ isInnerBlank c = false ∧ c ≠ ',' ∧ isBoundary c = false := by
  have hc := toNat_of_isHeadChar h
  have hne : ∀ d : Char, d.toNat < 48 ∨ 90 < d.toNat → c ≠ d := by
    rintro d hd rfl
    omega
  have h1 := hne '^' (by decide)
  have h2 := hne '~' (by decide)
  have h3 := hne ',' (by decide)
  have h4 := hne '\n' (by decide)
  have h5 := hne '\r' (by decide)
  have h6 := hne ' ' (by decide)
  have h7 := hne '\t' (by decide)
  have h8 := hne '\x0c' (by decide)
  simp [isValueChar, isLeader, isLineBreak, isInnerBlank, Text.isAsciiBlank, isBoundary, h1, h2, h3, h4, h5, h6, h7, h8]

theorem isHeadChar_of_mem {head : List Char} (h : IsHead head) : ∀ c ∈ head, isHeadChar c = true := by
  match head, h with
  | [a], h =>
    obtain rfl : a = 'A' := h
    intro c hc
    rw [List.mem_singleton.1 hc]
    rfl
  | [a, b], ⟨_, ha, hb⟩ =>
    intro c hc
    simp only [List.mem_cons, List.not_mem_nil, or_false] at hc
    rcases hc with rfl | rfl
    · exact ha
    · exact hb

theorem headLength_append {head : List Char} (h : IsHead head) (rest : List Char) :
    headLength (head ++ rest) = head.length := by
  match head, h with
  | [a], h =>
    obtain rfl : a = 'A' := h
    rfl
  | [a, b], ⟨hne, ha, _⟩ =>
    have hlower : a ≠ 'a' := by
      rintro rfl
      exact absurd ha (by decide)
    rw [List.cons_append, headLength]
    · rfl
    · rintro r he
      exact hne (List.cons.inj he).1
    · rintro r he
      exact hlower (List.cons.inj he).1

/-- A head is read from the text of its command. -/
theorem headOf_append {head : List Char} (h : IsHead head) (rest : List Char) : headOf (head ++ rest) = head := by
  rw [headOf, headLength_append h, List.take_left, Text.upper]
  exact (List.map_congr_left fun c hc => toUpper_of_isHeadChar (isHeadChar_of_mem h c hc)).trans (List.map_id _)

/-! ## Commands -/

/-- A command that is read as it is written. -/
structure Command.Writable (c : Command) : Prop where
  head : IsHead c.head
  body : Inner c.body

/-- Does the body of the command go on over line breaks? -/
def Command.isMultiline (c : Command) : Bool := Verb.isMultiline (Verb.of? c.leader c.head)

/-- The text after a command does not belong to its body. -/
def Command.Stops (c : Command) (rest : List Char) : Prop :=
  ∀ r ∈ rest.head?, isLeader r = true ∨ isLineBreak r = true ∧ c.isMultiline = false

theorem Command.Stops.atBoundary {c : Command} {rest : List Char} (h : c.Stops rest) : AtBoundary rest := by
  cases rest with
  | nil => rfl
  | cons r rest =>
    show (isLeader r || isLineBreak r) = true
    rcases h r rfl with hl | ⟨hb, -⟩
    · rw [hl, Bool.true_or]
    · rw [hb, Bool.or_true]

/-- The first token after a command does not go on its body. -/
theorem Command.Stops.head_tokens {c : Command} {rest : List Char} (h : c.Stops rest) (offset : Nat) :
    (tokens offset rest).head?.all (!continues c.isMultiline ·) := by
  cases rest with
  | nil => rw [tokens]; rfl
  | cons r rest =>
    rw [tokens, List.head?_cons]
    show (!continues c.isMultiline _) = true
    rw [continues]
    rcases h r rfl with hl | ⟨hb, hm⟩
    · have hk : (firstToken r rest).1 = .leader := by rw [firstToken.eq_def, if_pos hl]
      simp [hk]
    · have hk : (firstToken r rest).1 = .lineBreak := by
        rw [isLineBreak, Bool.or_eq_true, beq_iff_eq, beq_iff_eq] at hb
        rcases hb with rfl | rfl
        · rfl
        · rw [firstToken.eq_def, if_neg (by decide), if_neg (by decide), if_pos rfl]
          split <;> rfl
      simp [hk, hm]

theorem Leader.isLeader_char (l : Leader) : isLeader l.char = true := by
  cases l <;> rfl

theorem Leader.ofText_char (l : Leader) : ofText [l.char] = l := by
  cases l <;> rfl

/-- The token of a leader, and the tokens after it. -/
theorem tokens_leader (l : Leader) (offset : Nat) (cs : List Char) :
    tokens offset (l.char :: cs) = ⟨.leader, [l.char], offset⟩ :: tokens (offset + 1) cs := by
  have hfirst : firstToken l.char cs = (.leader, [], cs) := by rw [firstToken.eq_def, if_pos l.isLeader_char]
  have hbyte : Text.byteLength [l.char] = 1 := by cases l <;> rfl
  rw [tokens, hfirst]
  simp only [Token.stop, hbyte]

/-- The token of a head and the part of the body that belongs to it, and the tokens of the rest of the body. -/
theorem tokens_head {head : List Char} (h : IsHead head) (offset : Nat) (body : List Char) :
    let code : Token := ⟨.value, head ++ body.takeWhile isValueChar, offset⟩
    tokens offset (head ++ body) = code :: tokens code.stop (body.dropWhile isValueChar) := by
  intro code
  cases head with
  | nil => exact h.elim
  | cons a head =>
    have hmem := isHeadChar_of_mem h
    have hvalue : ∀ c ∈ head, isValueChar c = true := fun c hc =>
      (isValueChar_of_isHeadChar (hmem c (List.mem_cons_of_mem _ hc))).1
    obtain ⟨-, hblank, hcomma, hb⟩ := isValueChar_of_isHeadChar (hmem a List.mem_cons_self)
    have hfirst : firstToken a (head ++ body) =
        (.value, head ++ body.takeWhile isValueChar, body.dropWhile isValueChar) := by
      rw [firstToken_of_inner hb, if_neg hcomma, if_neg (by simp [hblank]), List.takeWhile_append_of_pos hvalue,
        List.dropWhile_append_of_pos hvalue]
    rw [List.cons_append, tokens, hfirst]
    rfl

/-- A leader and a value begin a command. -/
theorem segments_leader {t code : Token} (ht : t.kind = .leader) (hcode : code.kind = .value) (more : List Token) :
    let multiline := Verb.isMultiline (Verb.of? (Leader.ofText t.text) (headOf code.text))
    segments (t :: code :: more) = commandOf t code multiline (more.takeWhile (continues multiline)) ::
      segments (more.dropWhile (continues multiline)) := by
  rw [segments.eq_def]
  simp only [ht, hcode, if_true]

/-- The command that the tokens of a written command are. -/
theorem commandOf_tokens {c : Command} (hc : c.Writable) (offset : Nat) (m : Bool) :
    let code : Token := ⟨.value, c.head ++ c.body.takeWhile isValueChar, offset + 1⟩
    commandOf ⟨.leader, [c.leader.char], offset⟩ code m (tokens code.stop (c.body.dropWhile isValueChar)) =
      .command c ⟨offset, offset + Text.byteLength c.text⟩ := by
  intro code
  have hjoined : joined (tokens code.stop (c.body.dropWhile isValueChar)) = c.body.dropWhile isValueChar :=
    tokens_text _ _
  have hwhole : code.text.drop (headLength code.text) ++ c.body.dropWhile isValueChar = c.body := by
    rw [headLength_append hc.head, List.drop_left, List.takeWhile_append_dropWhile]
  have hbreak : Text.dropRightWhile isLineBreak c.body = c.body :=
    Text.dropRightWhile_of_all fun x hx => (Bool.or_eq_false_iff.1 (hc.body x hx)).2
  have hbyte : Text.byteLength [c.leader.char] = 1 := by cases c.leader <;> rfl
  have hstop : code.stop + Text.byteLength (c.body.dropWhile isValueChar) = offset + Text.byteLength c.text := by
    have htext : c.text = [c.leader.char] ++ code.text ++ c.body.dropWhile isValueChar := by
      show c.leader.char :: c.head ++ c.body = _
      rw [List.append_assoc, List.append_assoc, List.takeWhile_append_dropWhile]
      rfl
    rw [htext, Text.byteLength_append, Text.byteLength_append, hbyte]
    show offset + 1 + Text.byteLength code.text + _ = _
    omega
  rw [commandOf, hjoined, hwhole, hbreak, ite_self, Leader.ofText_char, headOf_append hc.head, hstop]

/-- **A written command is one segment** in front of what does not belong to its body. -/
theorem segments_command {c : Command} (hc : c.Writable) {rest : List Char} (h : c.Stops rest) (offset : Nat) :
    segments (tokens offset (c.text ++ rest)) = .command c ⟨offset, offset + Text.byteLength c.text⟩ ::
      segments (tokens (offset + Text.byteLength c.text) rest) := by
  have hinner : Inner (c.head ++ c.body) :=
    .append (fun x hx => (isValueChar_of_isHeadChar (isHeadChar_of_mem hc.head x hx)).2.2.2) hc.body
  have hbyte : Text.byteLength c.text = 1 + Text.byteLength (c.head ++ c.body) := by
    have hleader : Text.byteLength [c.leader.char] = 1 := by cases c.leader <;> rfl
    rw [← hleader, ← Text.byteLength_append]
    rfl
  have htokens := tokens_append h.atBoundary (offset + 1) (c.head ++ c.body) hinner
  rw [tokens_head hc.head] at htokens
  have hmore : ∀ t ∈ tokens (Token.stop ⟨.value, c.head ++ c.body.takeWhile isValueChar, offset + 1⟩)
      (c.body.dropWhile isValueChar), continues c.isMultiline t = true := by
    intro t ht
    have hdrop : Inner (c.body.dropWhile isValueChar) := fun x hx => hc.body x ((List.dropWhile_sublist _).subset hx)
    obtain ⟨h1, h2⟩ := kind_of_mem_tokens _ _ hdrop t ht
    simp [continues, h1, h2]
  show segments (tokens offset (c.leader.char :: (c.head ++ c.body ++ rest))) = _
  rw [tokens_leader, htokens, List.cons_append, segments_leader rfl rfl, Leader.ofText_char, headOf_append hc.head]
  show commandOf _ _ c.isMultiline (List.takeWhile (continues c.isMultiline) _) ::
    segments (List.dropWhile (continues c.isMultiline) _) = _
  rw [List.takeWhile_append_of_pos hmore, List.dropWhile_append_of_pos hmore]
  have htake := takeWhile_append_of_head (h.head_tokens (offset + 1 + Text.byteLength (c.head ++ c.body))) []
  have hdrop := dropWhile_append_of_head (h.head_tokens (offset + 1 + Text.byteLength (c.head ++ c.body))) []
  rw [List.nil_append] at htake hdrop
  rw [htake, hdrop, List.takeWhile_nil, List.dropWhile_nil, List.nil_append, List.append_nil, commandOf_tokens hc,
    hbyte, Nat.add_assoc]

/-! ## Lines -/

/-- The segments of commands that stand one after the other. -/
def spanned (offset : Nat) : List Command → List Segment
  | [] => []
  | c :: cs =>
    let stop := offset + Text.byteLength c.text
    .command c ⟨offset, stop⟩ :: spanned stop cs

/-- Commands that may stand on a line: they are writable, and the last one does not go on over the end of the line. -/
def IsCommandLine (cs : List Command) : Prop :=
  (∀ c ∈ cs, c.Writable) ∧ ∀ c ∈ cs.getLast?, c.isMultiline = false

/-- A line of written commands. -/
def IsWrittenLine (line : List Char) : Prop := ∃ cs, line = commandsText cs ∧ IsCommandLine cs

theorem IsCommandLine.tail {c : Command} {cs : List Command} (h : IsCommandLine (c :: cs)) : IsCommandLine cs := by
  refine ⟨fun x hx => h.1 x (List.mem_cons_of_mem _ hx), fun x hx => ?_⟩
  cases cs with
  | nil => cases hx
  | cons d cs =>
    apply h.2 x
    rw [List.getLast?_cons_cons]
    exact hx

/-- A line break between segments belongs to none. -/
theorem segments_lineFeed (offset : Nat) (rest : List Char) :
    segments (tokens offset ('\n' :: rest)) = segments (tokens (offset + 1) rest) := by
  rw [tokens, segments.eq_def]
  rfl

/-- **A line of written commands is read as these commands.** -/
theorem segments_line (rest : List Char) : ∀ {cs : List Command} (offset : Nat), IsCommandLine cs →
    segments (tokens offset (commandsText cs ++ '\n' :: rest)) =
      spanned offset cs ++ segments (tokens (offset + Text.byteLength (commandsText cs) + 1) rest)
  | [], offset, _ => segments_lineFeed offset rest
  | c :: cs, offset, h => by
    have hc : c.Writable := h.1 c List.mem_cons_self
    have hstops : c.Stops (commandsText cs ++ '\n' :: rest) := by
      intro r hr
      cases cs with
      | nil =>
        obtain rfl : '\n' = r := Option.some.inj hr
        exact .inr ⟨rfl, h.2 c rfl⟩
      | cons d cs =>
        obtain rfl : d.leader.char = r := Option.some.inj hr
        exact .inl d.leader.isLeader_char
    have htext : commandsText (c :: cs) = c.text ++ commandsText cs := rfl
    rw [htext, List.append_assoc, segments_command hc hstops, segments_line rest _ h.tail, Text.byteLength_append,
      ← Nat.add_assoc]
    rfl

end ThermalLabel.Zpl

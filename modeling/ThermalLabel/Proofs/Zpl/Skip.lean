import Mathlib.Data.List.TakeWhile
import ThermalLabel.Proofs.Recovery.Element
import ThermalLabel.Proofs.Zpl.Append
import ThermalLabel.Proofs.Zpl.Steps

/-!
# Skipped commands

A command on one line in front of a leader is one segment, whatever stands before it (`segments_ofText`). If it is
skipped, neither the state nor a position set before it changes. So a program with such a command draws what it draws
without it, on the same page (`recover_insert_skipped`).
-/

namespace ThermalLabel

namespace Zpl

/-- A text that, after a leader, is one command: on one line, and its code begins at once. -/
structure IsCommandText (text : List Char) : Prop where
  ne_nil : text ≠ []
  inner : Inner text
  head : ∀ c ∈ text.head?, Text.isAsciiBlank c = false ∧ c ≠ ','

/-- The command that a leader and the text after it are. -/
def Command.ofText (leader : Leader) (text : List Char) : Command :=
  let code := text.takeWhile isValueChar
  ⟨leader, headOf code, code.drop (headLength code) ++ text.dropWhile isValueChar⟩

/-- The code of a command is one token. -/
theorem IsCommandText.tokens {text : List Char} (h : IsCommandText text) (offset : Nat) :
    let code : Token := ⟨.value, text.takeWhile isValueChar, offset⟩
    tokens offset text = code :: Zpl.tokens code.stop (text.dropWhile isValueChar) := by
  cases text with
  | nil => exact absurd rfl h.ne_nil
  | cons c cs =>
    obtain ⟨hblank, hcomma⟩ := h.head c rfl
    have hc : isBoundary c = false := h.inner c List.mem_cons_self
    have hinner : isInnerBlank c = false := by rw [isInnerBlank, hblank, Bool.false_and]
    have hvalue : isValueChar c = true := by
      obtain ⟨hl, hb⟩ := Bool.or_eq_false_iff.1 hc
      simp [isValueChar, hl, hb, hcomma]
    have hfirst : firstToken c cs = (.value, cs.takeWhile isValueChar, cs.dropWhile isValueChar) := by
      rw [firstToken_of_inner hc, if_neg hcomma, if_neg (by simp [hinner])]
    rw [Zpl.tokens, hfirst, List.takeWhile_cons_of_pos hvalue, List.dropWhile_cons_of_pos hvalue]

/-- No line ends in the body. -/
theorem IsCommandText.dropRightWhile_body {text : List Char} (h : IsCommandText text) (leader : Leader) :
    Text.dropRightWhile isLineBreak (Command.ofText leader text).body = (Command.ofText leader text).body := by
  refine Text.dropRightWhile_of_all fun x hx => ?_
  have hmem : x ∈ text := by
    rcases List.mem_append.1 hx with hx | hx
    · exact (List.takeWhile_sublist _).subset (List.mem_of_mem_drop hx)
    · exact (List.dropWhile_sublist _).subset hx
  exact (Bool.or_eq_false_iff.1 (h.inner x hmem)).2

/-- **A command on one line is one segment.** -/
theorem segments_ofText (leader : Leader) {text : List Char} (h : IsCommandText text) (offset : Nat) :
    segments (tokens offset (leader.char :: text)) =
      [.command (Command.ofText leader text) ⟨offset, offset + Text.byteLength (leader.char :: text)⟩] := by
  let code : Token := ⟨.value, text.takeWhile isValueChar, offset + 1⟩
  let more := tokens code.stop (text.dropWhile isValueChar)
  have hmore : ∀ multiline, ∀ t ∈ more, continues multiline t = true := by
    intro multiline t ht
    have hdrop : Inner (text.dropWhile isValueChar) := fun x hx => h.inner x ((List.dropWhile_sublist _).subset hx)
    obtain ⟨h1, h2⟩ := kind_of_mem_tokens _ _ hdrop t ht
    simp [continues, h1, h2]
  have htokens : tokens (offset + 1) text = code :: more := h.tokens (offset + 1)
  have hjoined : joined more = text.dropWhile isValueChar := tokens_text _ _
  have hstop : code.stop + Text.byteLength (joined more) = offset + Text.byteLength (leader.char :: text) := by
    have hsplit := congrArg Text.byteLength (List.takeWhile_append_dropWhile (p := isValueChar) (l := text))
    have hleader : leader.char.utf8Size = 1 := by cases leader <;> rfl
    rw [Text.byteLength_append] at hsplit
    rw [hjoined, Token.stop, Text.byteLength_cons, hleader]
    show offset + 1 + Text.byteLength (text.takeWhile isValueChar) + _ = _
    omega
  have hcommand : ∀ multiline, commandOf ⟨.leader, [leader.char], offset⟩ code multiline more =
      .command (Command.ofText leader text) ⟨offset, offset + Text.byteLength (leader.char :: text)⟩ := by
    intro multiline
    rw [commandOf, hstop, hjoined, Leader.ofText_char]
    show Segment.command ⟨leader, headOf code.text, if multiline = true then
      Text.dropRightWhile isLineBreak (Command.ofText leader text).body else (Command.ofText leader text).body⟩ _ = _
    rw [h.dropRightWhile_body, ite_self]
    rfl
  rw [tokens_leader, htokens, segments_leader rfl rfl]
  rw [List.takeWhile_eq_self_iff.2 (hmore _), List.dropWhile_eq_nil_iff.2 (hmore _), hcommand, segments]

/-- A skipped command reports that it is skipped. -/
theorem eventsAt_skipped {leader : Leader} {text : List Char} (h : IsCommandText text) {f : Format} {cause : Cause}
    (hskip : (f.obey (Command.ofText leader text)).step = .skip cause) (g : Format) (offset : Nat) :
    ∃ span, eventsAt g offset (leader.char :: text) = [.step (.skip cause) span] ∧
      formatAt g offset (leader.char :: text) = g := by
  have hobey := obey_skip hskip g
  refine ⟨⟨offset, offset + Text.byteLength (leader.char :: text)⟩, ?_, ?_⟩
  · rw [eventsAt, segments_ofText leader h, events, Segment.events, hobey]
    rfl
  · rw [formatAt, segments_ofText leader h, formatAfter, List.foldl_cons, Segment.events, hobey]
    rfl

/-- **Without a skipped command** the assembly has one skip less, and no other difference but in findings. -/
theorem skipsMore_assembly {leader : Leader} {text : List Char} (htext : IsCommandText text) {f : Format}
    {cause : Cause} (hskip : (f.obey (Command.ofText leader text)).step = .skip cause) (before : List Char)
    {after : List Char} (hafter : AtLeader after) :
    Assembly.SkipsMore 1 (Language.zpl.assembly (before ++ (leader.char :: text ++ after)))
      (Language.zpl.assembly (before ++ after)) := by
  have hcommand : AtLeader (leader.char :: text ++ after) := leader.isLeader_char
  -- the state that `before` leaves, perhaps with a field still open
  let g := formatAt {} 0 before
  let start := 0 + Text.byteLength before
  obtain ⟨span, hevents, hformat⟩ := eventsAt_skipped htext hskip g start
  have hwith : Language.zpl.events (before ++ (leader.char :: text ++ after)) =
      eventsAt {} 0 before ++ (.step (.skip cause) span ::
        (eventsAt g start after).map (Event.shift (Text.byteLength (leader.char :: text)))) := by
    show eventsAt {} 0 _ = _
    rw [eventsAt_append_leader hcommand, eventsAt_append_leader hafter, hevents, hformat, eventsAt_shift]
    rfl
  have hwithout : Language.zpl.events (before ++ after) = eventsAt {} 0 before ++ eventsAt g start after :=
    eventsAt_append_leader hafter {} 0 before
  rw [Language.assembly, Language.assembly, hwith, hwithout, List.foldl_append, List.foldl_append, List.foldl_cons]
  exact (Assembly.skipsMore_skip _ cause span).foldl _ _

end Zpl

/--
**A skipped command changes nothing** but what was skipped. It may stand behind any text, even behind field data that is
not closed, and in front of any other command.
-/
theorem recover_insert_skipped {leader : Zpl.Leader} {text : String} (htext : Zpl.IsCommandText text.toList)
    {f : Zpl.Format} {cause : Cause} (hskip : (f.obey (.ofText leader text.toList)).step = .skip cause)
    (before : String) {after : String} (hafter : Zpl.AtLeader after.toList) :
    let inserted := recover .zpl (before ++ (String.singleton leader.char ++ text) ++ after)
    let plain := recover .zpl (before ++ after)
    inserted.elements = plain.elements ∧ inserted.page = plain.page ∧ inserted.skipped = plain.skipped + 1 := by
  intro inserted plain
  have hmore := Zpl.skipsMore_assembly htext hskip before.toList hafter
  have hinserted : (before ++ (String.singleton leader.char ++ text) ++ after).toList =
      before.toList ++ (leader.char :: text.toList ++ after.toList) := by
    simp only [String.toList_append, String.toList_singleton, List.append_assoc, List.singleton_append]
  have hplain : (before ++ after).toList = before.toList ++ after.toList := String.toList_append
  have h₁ : inserted = _ := recover_eq .zpl (before ++ (String.singleton leader.char ++ text) ++ after)
  have h₂ : plain = _ := recover_eq .zpl (before ++ after)
  rw [hinserted] at h₁
  rw [hplain] at h₂
  rw [h₁, h₂]
  exact ⟨hmore.elements, hmore.page, hmore.skipped⟩

/-- A default font without a readable height is skipped behind field data that it closes. -/
theorem recover_insert_defaultFont :
    let text := "CFB,high"
    let before := "^FO10,20^FDopen"
    let after := "^FS"
    let inserted := recover .zpl (before ++ (String.singleton '^' ++ text) ++ after)
    Zpl.IsCommandText text.toList ∧ Zpl.AtLeader after.toList ∧
      (({} : Zpl.Format).obey (.ofText .caret text.toList)).step =
        .skip (.malformed "^CF" "height" "high" "expected a non-negative integer") ∧
      inserted.elements = (recover .zpl (before ++ after)).elements ∧
      inserted.elements.map Element.content = ["open"] ∧ inserted.skipped = 1 := by
  intro text before after inserted
  have htext : Zpl.IsCommandText text.toList := by
    have hhead : text.toList.head? = some 'C' := by decide
    refine ⟨by decide, by decide, ?_⟩
    intro c hc
    rw [hhead] at hc
    obtain rfl : 'C' = c := Option.some.inj hc
    exact ⟨rfl, by decide⟩
  have hskip : (({} : Zpl.Format).obey (.ofText .caret text.toList)).step =
      .skip (.malformed "^CF" "height" "high" "expected a non-negative integer") := by
    decide +kernel
  have hafter : Zpl.AtLeader after.toList := by decide
  obtain ⟨helements, -, hskipped⟩ := recover_insert_skipped htext hskip before hafter
  have hplain : (recover .zpl (before ++ after)).elements.map Element.content = ["open"] ∧
      (recover .zpl (before ++ after)).skipped = 0 := ⟨by decide +kernel, by decide +kernel⟩
  refine ⟨htext, hafter, hskip, helements, ?_, ?_⟩
  · rw [← hplain.1]
    exact congrArg _ helements
  · rw [← Nat.zero_add 1, ← hplain.2]
    exact hskipped

end ThermalLabel

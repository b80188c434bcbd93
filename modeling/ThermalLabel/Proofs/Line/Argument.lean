import ThermalLabel.Line.Argument
import ThermalLabel.Proofs.Text.Fields

/-!
# Quoted arguments are split again

What stands between quotes is read back character by character (`splitArguments_escape`). In TSPL a backslash is an
escape only in front of a quote in brackets, and a quote stands in brackets only where it was escaped: so a backslash
of the content is never taken for an escape, not even in front of the closing quote, unless a bracket follows that quote
(`bracket_not_escape`). Hence written arguments are split as they were (`split_argumentsText`), and texts that all stand
in quotes need no more to be split again than that there is one (`split_quoted`).
-/

namespace ThermalLabel

open Text (extendFirst)

/-! ## One character -/

section Characters

variable (e : QuoteEscape) (quoted : Bool) (cs : List Char)

/-- A quote opens or closes quotes. -/
theorem splitArguments_quote : splitArguments e quoted ('"' :: cs) = splitArguments e (!quoted) cs := by
  rw [splitArguments.eq_def]
  cases quoted <;> rfl

/-- A comma outside quotes ends a field. -/
theorem splitArguments_comma :
    splitArguments e false (',' :: cs) = (splitArguments e false cs).map ([] :: ·) := by
  rw [splitArguments.eq_def]
  rfl

/-- A character that is neither a quote, nor a separator, nor may begin an escape belongs to the field. -/
theorem splitArguments_other {c : Char} (hq : c ≠ '"') (hc : c = ',' → quoted = true) (hb : c = '\\' → quoted = false) :
    splitArguments e quoted (c :: cs) = (splitArguments e quoted cs).map (extendFirst c) := by
  have hc' : ¬(c = ',' ∧ quoted = false) := fun h => by simp [hc h.1] at h
  have hb' : ¬(c = '\\' ∧ quoted = true) := fun h => by simp [hb h.1] at h
  rw [splitArguments.eq_def]
  simp only [if_neg hq, if_neg hc', if_neg hb']

/-- A backslash in EPL2 quotes stands in front of a character of the text. -/
theorem splitArguments_backslash (c : Char) :
    splitArguments .backslash true ('\\' :: c :: cs) = (splitArguments .backslash true cs).map (extendFirst c) := by
  rw [splitArguments.eq_def]
  rfl

/-- The escape of a quote in TSPL. -/
theorem splitArguments_bracket :
    splitArguments .bracket true ('\\' :: '[' :: '"' :: ']' :: cs) =
      (splitArguments .bracket true cs).map (extendFirst '"') := by
  rw [splitArguments.eq_def]
  rfl

/-- Any other backslash in TSPL quotes stands for itself. -/
theorem splitArguments_bare {cs : List Char} (h : ∀ r, cs ≠ '[' :: '"' :: ']' :: r) :
    splitArguments .bracket true ('\\' :: cs) = (splitArguments .bracket true cs).map (extendFirst '\\') := by
  rw [splitArguments.eq_def]
  simp only [if_neg (show ('\\' : Char) ≠ '"' by decide), if_neg (show ¬(('\\' : Char) = ',' ∧ true = false) by decide),
    and_self, if_true]

end Characters

/-! ## What stands between quotes -/

/-- Escaped text in front of its closing quote does not begin with a quote in brackets, because each quote of the text
has its own backslash, and no bracket follows the closing quote. -/
theorem bracket_not_escape {content rest : List Char} (h : rest.head? ≠ some ']') (r : List Char) :
    QuoteEscape.bracket.escape content ++ '"' :: rest ≠ '[' :: '"' :: ']' :: r := by
  intro he
  match content with
  | [] => simp [QuoteEscape.escape] at he
  | [c] =>
    by_cases hc : c = '"'
    · simp [QuoteEscape.escape, QuoteEscape.char, hc] at he
    · simp only [QuoteEscape.escape, QuoteEscape.char, List.flatMap_cons, List.flatMap_nil, if_neg hc, List.cons_append,
        List.nil_append, List.cons.injEq, true_and] at he
      obtain ⟨-, rfl⟩ := he
      exact h rfl
  | c :: d :: _ =>
    by_cases hc : c = '"'
    · simp [QuoteEscape.escape, QuoteEscape.char, hc] at he
    · by_cases hd : d = '"'
      · simp [QuoteEscape.escape, QuoteEscape.char, hc, hd] at he
      · simp [QuoteEscape.escape, QuoteEscape.char, hc, hd] at he

/-- **Escaped text is read back up to its closing quote.** In TSPL no bracket may follow that quote. -/
theorem splitArguments_escape (e : QuoteEscape) {rest : List Char} (h : rest.head? ≠ some ']') : ∀ content : List Char,
    splitArguments e true (e.escape content ++ '"' :: rest) =
      (splitArguments e false rest).map (content.foldr extendFirst)
  | [] => by
    rw [QuoteEscape.escape, List.flatMap_nil, List.nil_append, splitArguments_quote]
    exact Option.map_id'.symm
  | c :: content => by
    have ih := splitArguments_escape e h content
    have hsplit : e.escape (c :: content) = e.char c ++ e.escape content := rfl
    have hgoal : (splitArguments e false rest).map ((c :: content).foldr extendFirst) =
        (splitArguments e true (e.escape content ++ '"' :: rest)).map (extendFirst c) := by
      rw [ih, Option.map_map]
      rfl
    rw [hgoal, hsplit, List.append_assoc]
    cases e with
    | backslash =>
      by_cases hc : c = '"' ∨ c = '\\'
      · rw [QuoteEscape.char, if_pos hc]
        exact splitArguments_backslash _ c
      · rw [QuoteEscape.char, if_neg hc]
        exact splitArguments_other _ _ _ (fun he => hc (Or.inl he)) (fun _ => rfl) fun he => absurd (Or.inr he) hc
    | bracket =>
      by_cases hq : c = '"'
      · subst hq
        exact splitArguments_bracket _
      · rw [QuoteEscape.char, if_neg hq]
        by_cases hb : c = '\\'
        · subst hb
          exact splitArguments_bare (bracket_not_escape h)
        · exact splitArguments_other _ _ _ hq (fun _ => rfl) fun he => absurd he hb

/-! ## Arguments -/

namespace Argument

/-- What an argument is read as. -/
def value : Argument → List Char
  | .plain t => t
  | .quoted c => c

/-- An argument that needs no quotes, or has them. -/
def Clean : Argument → Prop
  | .plain t => '"' ∉ t ∧ ',' ∉ t
  | .quoted _ => True

end Argument

/-- Characters outside quotes belong to the field, commas and quotes apart. -/
theorem splitArguments_plain (e : QuoteEscape) (rest : List Char) : ∀ {t : List Char}, '"' ∉ t → ',' ∉ t →
    splitArguments e false (t ++ rest) = (splitArguments e false rest).map (t.foldr extendFirst)
  | [], _, _ => Option.map_id'.symm
  | c :: t, hq, hc => by
    rw [List.mem_cons, not_or] at hq hc
    rw [List.cons_append, splitArguments_other _ _ _ (Ne.symm hq.1) (fun h => absurd h.symm hc.1) fun _ => rfl,
      splitArguments_plain e rest hq.2 hc.2, Option.map_map]
    rfl

/-- One argument is read back, whatever follows its comma. -/
theorem splitArguments_argument (e : QuoteEscape) {a : Argument} (ha : a.Clean) {rest : List Char}
    (h : rest.head? ≠ some ']') :
    splitArguments e false (a.text e ++ rest) = (splitArguments e false rest).map (a.value.foldr extendFirst) := by
  cases a with
  | plain t => exact splitArguments_plain e rest ha.1 ha.2
  | quoted c =>
    rw [Argument.text, List.cons_append, List.cons_append, splitArguments_quote, List.append_assoc]
    exact splitArguments_escape e h c

theorem foldr_extendFirst (t f : List Char) (fs : List (List Char)) :
    t.foldr extendFirst (f :: fs) = (t ++ f) :: fs := by
  induction t with
  | nil => rfl
  | cons c t ih => rw [List.foldr_cons, ih]; rfl

/-- **Written arguments are split as they were.** -/
theorem split_argumentsText (e : QuoteEscape) : ∀ {as : List Argument}, as ≠ [] → (∀ a ∈ as, a.Clean) →
    e.split (argumentsText e as) = some (as.map Argument.value)
  | [], hne, _ => absurd rfl hne
  | [a], _, h => by
    have hs : splitArguments e false (a.text e ++ []) = _ :=
      splitArguments_argument e (h a List.mem_cons_self) (by simp)
    rw [List.append_nil] at hs
    show splitArguments e false (a.text e) = _
    rw [hs, splitArguments, Option.map_some, foldr_extendFirst, List.append_nil]
    rfl
  | a :: b :: as, _, h => by
    have ih : e.split (argumentsText e (b :: as)) = some ((b :: as).map Argument.value) :=
      split_argumentsText e (by simp) fun x hx => h x (List.mem_cons_of_mem _ hx)
    show splitArguments e false (a.text e ++ ',' :: argumentsText e (b :: as)) = _
    rw [splitArguments_argument e (h a List.mem_cons_self) (by simp), splitArguments_comma]
    rw [QuoteEscape.split] at ih
    rw [ih, Option.map_some, Option.map_some, foldr_extendFirst, List.append_nil]
    rfl

/-- A text without quotes is split at its commas. -/
theorem split_of_not_mem (e : QuoteEscape) {text : List Char} (h : '"' ∉ text) :
    e.split text = some (Text.splitOn ',' text) := by
  have htext : argumentsText e ((Text.splitOn ',' text).map Argument.plain) = text := by
    rw [argumentsText, List.map_map]
    exact (congrArg _ (List.map_id _)).trans (Text.joinWith_splitOn text)
  have hclean : ∀ a ∈ (Text.splitOn ',' text).map Argument.plain, a.Clean := by
    intro a ha
    obtain ⟨f, hf, rfl⟩ := List.mem_map.1 ha
    exact ⟨fun hq => h (Text.mem_of_mem_splitOn hf hq), Text.not_mem_of_mem_splitOn f hf⟩
  have hvalue : ((Text.splitOn ',' text).map Argument.plain).map Argument.value = Text.splitOn ',' text := by
    rw [List.map_map]
    exact List.map_id _
  have hsplit := split_argumentsText e (by simpa using Text.splitOn_ne_nil ',' text) hclean
  rw [htext, hvalue] at hsplit
  exact hsplit

/-- **Texts in quotes are split into the same texts**, whatever quotes, commas, backslashes and brackets are in them. -/
theorem split_quoted (e : QuoteEscape) {contents : List (List Char)} (h : contents ≠ []) :
    e.split (Text.joinWith ',' (contents.map fun c => '"' :: e.escape c ++ ['"'])) = some contents := by
  have htext : Text.joinWith ',' (contents.map fun c => '"' :: e.escape c ++ ['"']) =
      argumentsText e (contents.map Argument.quoted) := by
    rw [argumentsText, List.map_map]
    rfl
  have hclean : ∀ a ∈ contents.map Argument.quoted, a.Clean := by
    intro a ha
    obtain ⟨c, -, rfl⟩ := List.mem_map.mp ha
    trivial
  have hvalue : (contents.map Argument.quoted).map Argument.value = contents := by
    rw [List.map_map]
    exact List.map_id contents
  rw [htext, split_argumentsText e (by simpa using h) hclean, hvalue]

/-- Two texts in TSPL quotes: the first is itself the escape of a quote and ends in a backslash. -/
theorem split_quoted_escape_of_quote :
    ([['\\', '[', '"', ']', '\\'], [']', ',']] : List (List Char)) ≠ [] ∧
      QuoteEscape.bracket.split
        ['"', '\\', '[', '\\', '[', '"', ']', ']', '\\', '"', ',', '"', ']', ',', '"'] =
        some [['\\', '[', '"', ']', '\\'], [']', ',']] :=
  have hne : ([['\\', '[', '"', ']', '\\'], [']', ',']] : List (List Char)) ≠ [] := by decide
  ⟨hne, split_quoted .bracket hne⟩

end ThermalLabel

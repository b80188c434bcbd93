import ThermalLabel.Proofs.Json.Lexeme

/-!
# Number literals read back

A literal is proper if it has digits wherever it must and no needless zero in front. **Its text is then read as the
literal itself**, unless what follows could go on the number (`Literal.Proper.literal?_text`), and is one lexeme
(`Literal.Proper.lexemes_text`).
-/

namespace ThermalLabel

open Json

/-- One or more digits. -/
def IsDigits (ds : List Char) : Prop := ds ≠ [] ∧ ∀ c ∈ ds, c.isDigit = true

theorem isDigits_zero : IsDigits ['0'] := ⟨List.cons_ne_nil _ _, List.forall_mem_singleton.2 rfl⟩

theorem isDigits_decimal (n : Nat) : IsDigits (decimal n) :=
  ⟨decimal_ne_nil n, fun _ hc => isDigit_of_mem_decimal hc⟩

namespace Json

/-- Could a character go on a number? -/
def goesOn (c : Char) : Bool := c.isDigit || c == '.' || c == 'e' || c == 'E'

/-- A text that does not go on a number in front of it. -/
def Ended (rest : List Char) : Prop := ∀ c ∈ rest.head?, goesOn c = false

theorem ended_nil : Ended [] := nofun

theorem ended_cons {c : Char} (h : goesOn c = false) (rest : List Char) : Ended (c :: rest) := by
  intro d hd
  rw [← Option.some.inj hd]
  exact h

/-- A run of digits ends where no digit follows. -/
theorem digitRun_append {ds rest : List Char} (h : ∀ c ∈ ds, c.isDigit = true)
    (hrest : ∀ c ∈ rest.head?, c.isDigit = false) : digitRun (ds ++ rest) = (ds, rest) := by
  have htake : rest.takeWhile Char.isDigit = [] := by
    cases rest with
    | nil => rfl
    | cons c rest => rw [List.takeWhile_cons_of_neg (by rw [hrest c rfl]; decide)]
  have hdrop : rest.dropWhile Char.isDigit = rest := by
    cases rest with
    | nil => rfl
    | cons c rest => rw [List.dropWhile_cons_of_neg (by rw [hrest c rfl]; decide)]
  rw [digitRun, List.takeWhile_append_of_pos h, List.dropWhile_append_of_pos h, htake, hdrop, List.append_nil]

/-- What does not go on a number is neither a digit, nor a point, nor the letter of an exponent. -/
theorem goesOn_eq_false {c : Char} (h : goesOn c = false) :
    c.isDigit = false ∧ c ≠ '.' ∧ c ≠ 'e' ∧ c ≠ 'E' := by
  simpa [goesOn, and_assoc] using h

end Json

namespace Literal

/-- A literal that is a number when it is written. -/
structure Proper (n : Literal) : Prop where
  whole : IsDigits n.whole
  /-- Only zero itself begins with a zero. -/
  zero : n.whole.head? = some '0' → n.whole = ['0']
  fraction : ∀ ds ∈ n.fraction, IsDigits ds
  exponent : ∀ e ∈ n.exponent, IsDigits e.2

/-! ## Reading the text of a literal -/

/-- The text of a sign in an exponent. -/
def signText : ExponentSign → List Char
  | .none => []
  | .plus => ['+']
  | .minus => ['-']

/-- The point and the digits after it. -/
def fractionText : Option (List Char) → List Char
  | none => []
  | some ds => '.' :: ds

/-- The exponent with its letter and sign. -/
def exponentText : Option (ExponentSign × List Char) → List Char
  | none => []
  | some (sign, ds) => 'e' :: (signText sign ++ ds)

theorem text_eq (n : Literal) :
    n.text = (if n.negative then ['-'] else []) ++
      (n.whole ++ (fractionText n.fraction ++ exponentText n.exponent)) := by
  obtain ⟨negative, whole, _ | ds, _ | ⟨_ | _ | _, es⟩⟩ := n
  all_goals
    simp only [text, List.append_assoc]
    rfl

/-- A digit is neither the sign of a number nor that of an exponent. -/
theorem exists_digit_of_isDigits {ds : List Char} (h : IsDigits ds) :
    ∃ d ds', ds = d :: ds' ∧ d.isDigit = true ∧ d ≠ '-' ∧ d ≠ '+' := by
  obtain ⟨d, ds', rfl⟩ := List.exists_cons_of_ne_nil h.1
  have hd := h.2 d List.mem_cons_self
  refine ⟨d, ds', rfl, hd, ?_, ?_⟩
  · rintro rfl
    exact absurd hd (by decide)
  · rintro rfl
    exact absurd hd (by decide)

theorem minusSign_append (negative : Bool) {ds : List Char} (h : IsDigits ds) (rest : List Char) :
    minusSign ((if negative then ['-'] else []) ++ (ds ++ rest)) = (negative, ds ++ rest) := by
  cases negative with
  | true => rfl
  | false =>
    obtain ⟨d, ds', rfl, -, hminus, -⟩ := exists_digit_of_isDigits h
    show minusSign (d :: (ds' ++ rest)) = _
    rw [minusSign]
    · rfl
    · exact fun cs hcs => hminus (List.cons.inj hcs).1

theorem exponentSign_append (sign : ExponentSign) {ds : List Char} (h : IsDigits ds) (rest : List Char) :
    exponentSign (signText sign ++ ds ++ rest) = (sign, ds ++ rest) := by
  cases sign with
  | plus | minus => rfl
  | none =>
    obtain ⟨d, ds', rfl, -, hminus, hplus⟩ := exists_digit_of_isDigits h
    show exponentSign (d :: (ds' ++ rest)) = _
    rw [exponentSign]
    · rfl
    · exact fun cs hcs => hplus (List.cons.inj hcs).1
    · exact fun cs hcs => hminus (List.cons.inj hcs).1

theorem exponentPart_append {exponent : Option (ExponentSign × List Char)} (h : ∀ e ∈ exponent, IsDigits e.2)
    {rest : List Char} (hrest : Ended rest) : exponentPart (exponentText exponent ++ rest) = some (exponent, rest) := by
  match exponent with
  | none =>
    cases rest with
    | nil => rfl
    | cons c rest =>
      obtain ⟨-, -, he, hE⟩ := goesOn_eq_false (hrest c rfl)
      show exponentPart (c :: rest) = _
      rw [exponentPart, if_neg (not_or.2 ⟨he, hE⟩)]
  | some (sign, ds) =>
    have hds : IsDigits ds := h _ rfl
    show exponentPart ('e' :: (signText sign ++ ds ++ rest)) = _
    rw [exponentPart, if_pos (.inl rfl), exponentSign_append sign hds]
    dsimp only
    rw [digitRun_append hds.2 fun c hc => (goesOn_eq_false (hrest c hc)).1]
    exact if_neg hds.1

/-- Neither a digit nor a point begins an exponent or what follows a number. -/
theorem head_exponentText (exponent : Option (ExponentSign × List Char)) {rest : List Char} (hrest : Ended rest) :
    ∀ c ∈ (exponentText exponent ++ rest).head?, c.isDigit = false ∧ c ≠ '.' := by
  intro c hc
  cases exponent with
  | none =>
    obtain ⟨hdigit, hpoint, -⟩ := goesOn_eq_false (hrest c hc)
    exact ⟨hdigit, hpoint⟩
  | some e =>
    obtain rfl : 'e' = c := Option.some.inj hc
    decide

theorem fractionPart_append {fraction : Option (List Char)} (h : ∀ ds ∈ fraction, IsDigits ds) {rest : List Char}
    (hrest : ∀ c ∈ rest.head?, c.isDigit = false ∧ c ≠ '.') :
    fractionPart (fractionText fraction ++ rest) = some (fraction, rest) := by
  cases fraction with
  | none =>
    show fractionPart rest = _
    rw [fractionPart]
    rintro cs rfl
    exact (hrest '.' rfl).2 rfl
  | some ds =>
    obtain ⟨hne, hds⟩ := h ds rfl
    show fractionPart ('.' :: (ds ++ rest)) = _
    rw [fractionPart, digitRun_append hds fun c hc => (hrest c hc).1]
    exact if_neg hne

/-- No digit begins a fraction or what follows it. -/
theorem head_fractionText (fraction : Option (List Char)) {rest : List Char}
    (hrest : ∀ c ∈ rest.head?, c.isDigit = false ∧ c ≠ '.') :
    ∀ c ∈ (fractionText fraction ++ rest).head?, c.isDigit = false := by
  intro c hc
  cases fraction with
  | none => exact (hrest c hc).1
  | some ds =>
    obtain rfl : '.' = c := Option.some.inj hc
    rfl

/-- **The text of a proper literal is read as the literal.** -/
theorem Proper.literal?_text {n : Literal} (h : n.Proper) {rest : List Char} (hrest : Ended rest) :
    literal? (n.text ++ rest) = some (n, rest) := by
  have hexponent := head_exponentText n.exponent hrest
  have hfraction := head_fractionText n.fraction hexponent
  have htext : n.text ++ rest = (if n.negative then ['-'] else []) ++
      (n.whole ++ (fractionText n.fraction ++ (exponentText n.exponent ++ rest))) := by
    simp only [text_eq, List.append_assoc]
  have hzero : ¬(n.whole = [] ∨ n.whole.head? = some '0' ∧ n.whole ≠ ['0']) := by
    rintro (hnil | ⟨hhead, hne⟩)
    · exact h.whole.1 hnil
    · exact hne (h.zero hhead)
  rw [htext, literal?, minusSign_append n.negative h.whole]
  dsimp only
  rw [digitRun_append h.whole.2 hfraction]
  dsimp only
  rw [if_neg hzero, fractionPart_append h.fraction hexponent]
  dsimp only
  rw [exponentPart_append h.exponent hrest]
  rfl

/-- A number begins with neither a blank, nor a mark, nor a quote, nor the letter of a word. -/
theorem firstChar {c : Char} (h : c = '-' ∨ c.isDigit = true) :
    isSpace c = false ∧ mark? c = none ∧ c ≠ '"' ∧ 'n' ≠ c ∧ 't' ≠ c ∧ 'f' ≠ c := by
  rcases h with rfl | h
  · decide
  · have hall : ∀ n < 58, 48 ≤ n → isSpace (Char.ofNat n) = false ∧ mark? (Char.ofNat n) = none ∧
        Char.ofNat n ≠ '"' ∧ 'n' ≠ Char.ofNat n ∧ 't' ≠ Char.ofNat n ∧ 'f' ≠ Char.ofNat n := by
      decide
    obtain ⟨hl, hu⟩ := toNat_of_isDigit h
    have hc := hall c.toNat (by omega) hl
    rw [Char.ofNat_toNat] at hc
    exact hc

/-- **A proper literal is one lexeme**, unless what follows goes on the number. -/
theorem Proper.lexemes_text {n : Literal} (h : n.Proper) {rest : List Char} (hrest : Ended rest) :
    lexemes (n.text ++ rest) = .number n :: lexemes rest := by
  have hliteral := h.literal?_text hrest
  obtain ⟨c, cs, hcons, hc⟩ : ∃ c cs, n.text ++ rest = c :: cs ∧ (c = '-' ∨ c.isDigit = true) := by
    rw [text_eq]
    cases n.negative with
    | true => exact ⟨'-', _, rfl, .inl rfl⟩
    | false =>
      obtain ⟨d, ds, hds, hd, -⟩ := exists_digit_of_isDigits h.whole
      rw [hds]
      exact ⟨d, _, rfl, .inr hd⟩
  obtain ⟨hspace, hmark, hquote, hn, ht, hf⟩ := firstChar hc
  have hnull : Text.stripLead "null".toList (c :: cs) = none := if_neg hn
  have htrue : Text.stripLead "true".toList (c :: cs) = none := if_neg ht
  have hfalse : Text.stripLead "false".toList (c :: cs) = none := if_neg hf
  rw [hcons] at hliteral ⊢
  refine lexemes_wordOrNumber hspace hmark hquote ?_
  rw [wordOrNumber?, hnull, htrue, hfalse]
  dsimp only
  rw [hliteral]
  rfl

end Literal

end ThermalLabel

import ThermalLabel.Json.Basic
import ThermalLabel.Text.Basic

/-!
# Lexemes of documents

A document is cut into brackets, marks, words, numbers and strings; blanks between them are dropped. The lexemes end
with `bad` at the first place where none can be read: a number such as `01` or `1.`, an unknown escape, a control
character inside a string, a string without an end.

Each reader gives the rest of the text together with the fact that it is shorter, so that `lexemes` ends.
-/

namespace ThermalLabel.Json

/-- The parts a document is made of. A string without text names half of a surrogate pair. -/
inductive Lexeme where
  | openArray
  | closeArray
  | openObject
  | closeObject
  | comma
  | colon
  | null
  | bool (b : Bool)
  | number (n : Literal)
  | string (s : Option String)
  | bad

/-! ## Strings -/

/-- A character of a string as written: itself, or a UTF-16 code unit given by its number. -/
inductive Piece where
  | char (c : Char)
  | codeUnit (n : Nat)

/-- The value of a hex digit. -/
def hexValue? (c : Char) : Option Nat :=
  if '0' ≤ c ∧ c ≤ '9' then some (c.toNat - '0'.toNat)
  else if 'a' ≤ c ∧ c ≤ 'f' then some (c.toNat - 'a'.toNat + 10)
  else if 'A' ≤ c ∧ c ≤ 'F' then some (c.toNat - 'A'.toNat + 10)
  else none

/-- The number of four hex digits. -/
def hexUnit? (a b c d : Char) : Option Nat := do
  let a ← hexValue? a
  let b ← hexValue? b
  let c ← hexValue? c
  let d ← hexValue? d
  some (((a * 16 + b) * 16 + c) * 16 + d)

/-- The character of a one-letter escape. -/
def shortEscape? (c : Char) : Option Char :=
  if c = '"' ∨ c = '\\' ∨ c = '/' then some c
  else if c = 'b' then some '\x08'
  else if c = 'f' then some '\x0c'
  else if c = 'n' then some '\n'
  else if c = 'r' then some '\r'
  else if c = 't' then some '\t'
  else none

/-- The pieces up to the closing quote, and what follows it. -/
def stringPieces : List Char → Option (List Piece × List Char)
  | [] => none
  | '"' :: cs => some ([], cs)
  | '\\' :: 'u' :: a :: b :: c :: d :: cs =>
    match hexUnit? a b c d with
    | none => none
    | some n => (stringPieces cs).map fun (ps, r) => (.codeUnit n :: ps, r)
  | '\\' :: e :: cs =>
    match shortEscape? e with
    | none => none
    | some c => (stringPieces cs).map fun (ps, r) => (.char c :: ps, r)
  | c :: cs => if c.toNat < 0x20 ∨ c = '\\' then none else (stringPieces cs).map fun (ps, r) => (.char c :: ps, r)

theorem length_stringPieces_le {cs : List Char} {ps : List Piece} {r : List Char}
    (h : stringPieces cs = some (ps, r)) : r.length ≤ cs.length := by
  fun_induction stringPieces cs generalizing ps r with
  | case1 => simp at h
  | case2 cs => simp_all
  | case3 => simp at h
  | case4 a b c d cs n _ ih =>
    simp only [Option.map_eq_some_iff, Prod.mk.injEq, Prod.exists] at h
    obtain ⟨ps', r', h', rfl, rfl⟩ := h
    have := ih h'
    simp only [List.length_cons]
    omega
  | case5 => simp at h
  | case6 e cs _ c _ ih =>
    simp only [Option.map_eq_some_iff, Prod.mk.injEq, Prod.exists] at h
    obtain ⟨ps', r', h', rfl, rfl⟩ := h
    have := ih h'
    simp only [List.length_cons]
    omega
  | case7 => simp at h
  | case8 c cs _ _ _ _ ih =>
    simp only [Option.map_eq_some_iff, Prod.mk.injEq, Prod.exists] at h
    obtain ⟨ps', r', h', rfl, rfl⟩ := h
    have := ih h'
    simp only [List.length_cons]
    omega

/-- The text of the pieces: two code units that form a surrogate pair are one character, half a pair is no text. -/
def piecesText? : List Piece → Option (List Char)
  | [] => some []
  | .char c :: ps => (piecesText? ps).map (c :: ·)
  | .codeUnit n :: ps =>
    if n < 0xD800 ∨ 0xDFFF < n then (piecesText? ps).map (Char.ofNat n :: ·)
    else match ps with
      | .codeUnit m :: ps' =>
        if n < 0xDC00 ∧ 0xDC00 ≤ m ∧ m ≤ 0xDFFF then
          (piecesText? ps').map (Char.ofNat (0x10000 + (n - 0xD800) * 0x400 + (m - 0xDC00)) :: ·)
        else none
      | _ => none

/-! ## Numbers -/

/-- A run of digits, and what follows it. -/
def digitRun (cs : List Char) : List Char × List Char := (cs.takeWhile Char.isDigit, cs.dropWhile Char.isDigit)

/-- The digits after a point, if there is a point; `none` if it has no digits. -/
def fractionPart : List Char → Option (Option (List Char) × List Char)
  | '.' :: cs =>
    let (ds, r) := digitRun cs
    if ds = [] then none else some (some ds, r)
  | cs => some (none, cs)

/-- The sign of an exponent, and what follows it. -/
def exponentSign : List Char → ExponentSign × List Char
  | '+' :: cs => (.plus, cs)
  | '-' :: cs => (.minus, cs)
  | cs => (.none, cs)

/-- The sign and digits of an exponent, if there is one; `none` if it has no digits. -/
def exponentPart : List Char → Option (Option (ExponentSign × List Char) × List Char)
  | [] => some (none, [])
  | e :: cs =>
    if e = 'e' ∨ e = 'E' then
      let (ds, r) := digitRun (exponentSign cs).2
      if ds = [] then none else some (some ((exponentSign cs).1, ds), r)
    else some (none, e :: cs)

/-- Whether there is a minus sign, and what follows it. -/
def minusSign : List Char → Bool × List Char
  | '-' :: cs => (true, cs)
  | cs => (false, cs)

/-- A number, and what follows it. Only zero itself begins with a zero. -/
def literal? (cs : List Char) : Option (Literal × List Char) :=
  let (whole, r) := digitRun (minusSign cs).2
  if whole = [] ∨ (whole.head? = some '0' ∧ whole ≠ ['0']) then none
  else
    match fractionPart r with
    | none => none
    | some (fraction, r) =>
      (exponentPart r).map fun (exponent, r) => (⟨(minusSign cs).1, whole, fraction, exponent⟩, r)

theorem length_digitRun_le (cs : List Char) : (digitRun cs).2.length ≤ cs.length :=
  (List.dropWhile_sublist _).length_le

theorem length_digitRun_lt {cs : List Char} (h : (digitRun cs).1 ≠ []) : (digitRun cs).2.length < cs.length := by
  have hl := congrArg List.length (List.takeWhile_append_dropWhile (p := Char.isDigit) (l := cs))
  have hp : 0 < (cs.takeWhile Char.isDigit).length := List.length_pos_iff.2 h
  simp only [List.length_append] at hl
  simp only [digitRun]
  omega

theorem length_fractionPart_le {cs r : List Char} {f : Option (List Char)} (h : fractionPart cs = some (f, r)) :
    r.length ≤ cs.length := by
  unfold fractionPart at h
  split at h
  · next cs =>
    have := length_digitRun_le cs
    grind
  · simp_all

theorem length_exponentSign_le (cs : List Char) : (exponentSign cs).2.length ≤ cs.length := by
  unfold exponentSign
  split <;> simp

theorem length_exponentPart_le {cs r : List Char} {e : Option (ExponentSign × List Char)}
    (h : exponentPart cs = some (e, r)) : r.length ≤ cs.length := by
  unfold exponentPart at h
  split at h
  · simp_all
  · next c cs =>
    have h₁ := length_exponentSign_le cs
    have h₂ := length_digitRun_le (exponentSign cs).2
    grind

theorem length_minusSign_le (cs : List Char) : (minusSign cs).2.length ≤ cs.length := by
  unfold minusSign
  split <;> simp

theorem length_literal?_lt {cs r : List Char} {n : Literal} (h : literal? cs = some (n, r)) :
    r.length < cs.length := by
  unfold literal? at h
  have h₀ := length_minusSign_le cs
  have h₁ := @length_digitRun_lt (minusSign cs).2
  simp only at h
  split at h
  · simp at h
  · next hw =>
    split at h
    · simp at h
    · next f r₁ hf =>
      simp only [Option.map_eq_some_iff, Prod.mk.injEq, Prod.exists] at h
      obtain ⟨e, r₂, he, _, rfl⟩ := h
      have := length_fractionPart_le hf
      have := length_exponentPart_le he
      have := h₁ fun h => hw (.inl h)
      omega

/-! ## Lexemes -/

/-- The blanks between lexemes. -/
def isSpace (c : Char) : Bool := c == ' ' || c == '\n' || c == '\r' || c == '\t'

/-- A mark of one character. -/
def mark? (c : Char) : Option Lexeme :=
  if c = '[' then some .openArray
  else if c = ']' then some .closeArray
  else if c = '\x7b' then some .openObject
  else if c = '\x7d' then some .closeObject
  else if c = ',' then some .comma
  else if c = ':' then some .colon
  else none

/-- A word or number, and what follows it. -/
def wordOrNumber? (cs : List Char) : Option (Lexeme × List Char) :=
  match Text.stripLead "null".toList cs, Text.stripLead "true".toList cs, Text.stripLead "false".toList cs with
  | some r, _, _ => some (.null, r)
  | none, some r, _ => some (.bool true, r)
  | none, none, some r => some (.bool false, r)
  | none, none, none => (literal? cs).map fun (n, r) => (.number n, r)

theorem length_stripLead {l cs r : List Char} (h : Text.stripLead l cs = some r) :
    cs.length = l.length + r.length := by
  induction l generalizing cs with
  | nil => simp_all [Text.stripLead]
  | cons a l ih =>
    cases cs with
    | nil => simp [Text.stripLead] at h
    | cons c cs =>
      simp only [Text.stripLead] at h
      split at h
      · have := ih h
        simp only [List.length_cons]
        omega
      · simp at h

theorem length_wordOrNumber?_lt {cs r : List Char} {x : Lexeme} (h : wordOrNumber? cs = some (x, r)) :
    r.length < cs.length := by
  unfold wordOrNumber? at h
  split at h
  · next h' => have := length_stripLead h'; grind
  · next h' => have := length_stripLead h'; grind
  · next h' => have := length_stripLead h'; grind
  · simp only [Option.map_eq_some_iff, Prod.mk.injEq, Prod.exists] at h
    obtain ⟨n, r', h', _, rfl⟩ := h
    exact length_literal?_lt h'

/-- The lexemes of a text, up to the first place where none can be read. -/
def lexemes : List Char → List Lexeme
  | [] => []
  | c :: cs =>
    if isSpace c then lexemes cs
    else match mark? c with
      | some m => m :: lexemes cs
      | none =>
        if c = '"' then
          match _h : stringPieces cs with
          | some (ps, r) => .string ((piecesText? ps).map String.ofList) :: lexemes r
          | none => [.bad]
        else
          match _h : wordOrNumber? (c :: cs) with
          | some (x, r) => x :: lexemes r
          | none => [.bad]
termination_by cs => cs.length
decreasing_by
  · simp
  · simp
  · have := length_stringPieces_le _h
    simp only [List.length_cons]
    omega
  · exact length_wordOrNumber?_lt _h

end ThermalLabel.Json

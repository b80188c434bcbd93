/-!
# Characters and trimming

Programs are read as lists of characters. This module holds the character classes that the command languages and
the documents distinguish, and the few list functions every scanner shares.

* **Blank** is the Unicode property White_Space; trimming removes blanks from both ends.
* **ASCII blank** and **control** are the narrower classes that token boundaries and one-line content rest on.
* `splitOn` cuts at every separator: `n` separators make `n + 1` fields, the empty ones included.
-/

namespace ThermalLabel.Text

/-! ## Character classes -/

/-- The twenty-five characters with the Unicode property White_Space. -/
def isBlank (c : Char) : Bool :=
  let n := c.toNat
  (0x09 ≤ n && n ≤ 0x0D) || n == 0x20 || n == 0x85 || n == 0xA0 || n == 0x1680 || (0x2000 ≤ n && n ≤ 0x200A) ||
    n == 0x2028 || n == 0x2029 || n == 0x202F || n == 0x205F || n == 0x3000

/-- Space, tab, line feed, form feed and carriage return. The vertical tab is not among them. -/
def isAsciiBlank (c : Char) : Bool :=
  c == ' ' || c == '\t' || c == '\n' || c == '\x0c' || c == '\r'

/-- The control characters, both the ASCII ones and those from U+0080 to U+009F. -/
def isControl (c : Char) : Bool :=
  let n := c.toNat
  n < 0x20 || (0x7F ≤ n && n ≤ 0x9F)

/-- The control characters of ASCII. -/
def isAsciiControl (c : Char) : Bool :=
  let n := c.toNat
  n < 0x20 || n == 0x7F

/-- An ASCII blank is blank. -/
theorem isBlank_of_isAsciiBlank {c : Char} (h : isAsciiBlank c = true) : isBlank c = true := by
  simp only [isAsciiBlank, Bool.or_eq_true, beq_iff_eq] at h
  rcases h with (((h | h) | h) | h) | h <;> subst h <;> decide

/-! ## Trimming -/

/-- The text without its leading blanks. -/
def trimLeft (cs : List Char) : List Char := cs.dropWhile isBlank

/-- The text without the trailing characters that satisfy `p`. -/
def dropRightWhile (p : Char → Bool) (cs : List Char) : List Char := (cs.reverse.dropWhile p).reverse

/-- The text without its trailing blanks. -/
def trimRight (cs : List Char) : List Char := dropRightWhile isBlank cs

/-- The text without blanks at either end. -/
def trim (cs : List Char) : List Char := trimRight (trimLeft cs)

/-! ## Case -/

/-- The text with its ASCII letters in upper case. -/
def upper (cs : List Char) : List Char := cs.map Char.toUpper

/-- The text with its ASCII letters in lower case. -/
def lower (cs : List Char) : List Char := cs.map Char.toLower

/-- Equality up to the case of ASCII letters. -/
def sameUpToCase (a b : List Char) : Bool := lower a == lower b

/-! ## Fields -/

/-- Puts `c` in front of the first field. -/
def extendFirst (c : Char) : List (List Char) → List (List Char)
  | [] => [[c]]
  | f :: fs => (c :: f) :: fs

/-- The fields between the separators. -/
def splitOn (sep : Char) : List Char → List (List Char)
  | [] => [[]]
  | c :: cs => if c = sep then [] :: splitOn sep cs else extendFirst c (splitOn sep cs)

/-- The fields with the separator between each two of them. -/
def joinWith (sep : Char) : List (List Char) → List Char
  | [] => []
  | [f] => f
  | f :: g :: fs => f ++ sep :: joinWith sep (g :: fs)

theorem splitOn_ne_nil (sep : Char) (cs : List Char) : splitOn sep cs ≠ [] := by
  cases cs with
  | nil => simp [splitOn]
  | cons c cs =>
    unfold splitOn
    split
    · simp
    · cases splitOn sep cs <;> simp [extendFirst]

/-- A text splits at a separator into the fields of what precedes it and those of what follows it. -/
theorem splitOn_append_cons (sep : Char) (a b : List Char) :
    splitOn sep (a ++ sep :: b) = splitOn sep a ++ splitOn sep b := by
  induction a with
  | nil => simp [splitOn]
  | cons c a ih =>
    by_cases h : c = sep
    · simp [splitOn, h, ih]
    · have hne := splitOn_ne_nil sep a
      simp only [List.cons_append, splitOn, h, if_false, ih]
      cases hs : splitOn sep a with
      | nil => exact absurd hs hne
      | cons f fs => simp [extendFirst]

/-- Does `cs` begin with `lead`? If so, what follows it. -/
def stripLead : List Char → List Char → Option (List Char)
  | [], cs => some cs
  | _ :: _, [] => none
  | l :: ls, c :: cs => if l = c then stripLead ls cs else none

end ThermalLabel.Text

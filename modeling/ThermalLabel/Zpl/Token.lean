import ThermalLabel.Text.Utf8
import ThermalLabel.Diagnostic.Basic

/-!
# ZPL tokens

A ZPL program is cut into leaders, commas, line breaks, runs of blanks and values. A value is any other run up to the
next leader, comma or line break; blanks inside it belong to it.

* `tokens_text`: the texts of the tokens, put together, are the program.
* `tokens_tile`: each token starts where the one before it stops.
-/

namespace ThermalLabel.Zpl

/-- The classes of tokens. -/
inductive TokenKind where
  | leader
  | comma
  | value
  | lineBreak
  | blank
  deriving DecidableEq, Repr

/-- A piece of a program and the offset of its first byte. -/
structure Token where
  kind : TokenKind
  text : List Char
  start : Nat
  deriving DecidableEq, Repr

/-- The offset after the token's last byte. -/
def Token.stop (t : Token) : Nat := t.start + Text.byteLength t.text

/-- The bytes of the token. -/
def Token.span (t : Token) : Span := ⟨t.start, t.stop⟩

/-- A character that begins a command. -/
def isLeader (c : Char) : Bool := c == '^' || c == '~'

/-- A character that ends a line. -/
def isLineBreak (c : Char) : Bool := c == '\n' || c == '\r'

/-- A blank within a line. -/
def isInnerBlank (c : Char) : Bool := Text.isAsciiBlank c && !isLineBreak c

/-- A character that a value can go on with. -/
def isValueChar (c : Char) : Bool := !(isLeader c || c == ',' || isLineBreak c)

/-- The class of the token that begins with `c`, how the token goes on in `cs`, and what follows it. -/
def firstToken (c : Char) (cs : List Char) : TokenKind × List Char × List Char :=
  if isLeader c then (.leader, [], cs)
  else if c = ',' then (.comma, [], cs)
  else if c = '\r' then
    match cs with
    | '\n' :: r => (.lineBreak, ['\n'], r)
    | _ => (.lineBreak, [], cs)
  else if c = '\n' then (.lineBreak, [], cs)
  else if isInnerBlank c then (.blank, cs.takeWhile isInnerBlank, cs.dropWhile isInnerBlank)
  else (.value, cs.takeWhile isValueChar, cs.dropWhile isValueChar)

theorem firstToken_append (c : Char) (cs : List Char) : (firstToken c cs).2.1 ++ (firstToken c cs).2.2 = cs := by
  unfold firstToken
  split
  · simp
  split
  · simp
  split
  · split <;> simp
  split
  · simp
  split <;> simp

/-- The tokens of a text whose first byte is at `offset`. -/
def tokens (offset : Nat) : List Char → List Token
  | [] => []
  | c :: cs =>
    let t : Token := ⟨(firstToken c cs).1, c :: (firstToken c cs).2.1, offset⟩
    t :: tokens t.stop (firstToken c cs).2.2
termination_by cs => cs.length
decreasing_by
  have := congrArg List.length (firstToken_append c cs)
  simp only [List.length_append] at this
  simp only [List.length_cons]
  omega

/-- Nothing of the text is lost. -/
theorem tokens_text (offset : Nat) (cs : List Char) : (tokens offset cs).flatMap Token.text = cs := by
  fun_induction tokens offset cs with
  | case1 => rfl
  | case2 offset c cs t ih =>
    rw [List.flatMap_cons, ih]
    simp [t, firstToken_append]

/-- Do the tokens follow each other without a gap from `start` to `stop`? -/
def Tile : Nat → List Token → Nat → Prop
  | start, [], stop => start = stop
  | start, t :: ts, stop => t.start = start ∧ Tile t.stop ts stop

/-- The tokens follow each other without a gap through the whole text. -/
theorem tokens_tile (offset : Nat) (cs : List Char) : Tile offset (tokens offset cs) (offset + Text.byteLength cs) := by
  fun_induction tokens offset cs with
  | case1 => simp [Tile]
  | case2 offset c cs t ih =>
    refine ⟨rfl, ?_⟩
    have h := congrArg Text.byteLength (firstToken_append c cs)
    have : t.stop + Text.byteLength (firstToken c cs).2.2 = offset + Text.byteLength (c :: cs) := by
      simp only [Text.byteLength_append] at h
      simp only [t, Token.stop, Text.byteLength_cons]
      omega
    rw [← this]
    exact ih

end ThermalLabel.Zpl

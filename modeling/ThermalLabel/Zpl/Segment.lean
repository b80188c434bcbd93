import ThermalLabel.Zpl.Command
import ThermalLabel.Zpl.Token

/-!
# ZPL segments

The tokens of a program are grouped into segments: a command with its body, a leader without a command, or a stray run
of text. A body goes on to the next leader or line break; field data and comments go on over line breaks. Blanks and
line breaks between segments belong to none.
-/

namespace ThermalLabel.Zpl

/-- A part of a program that a scanner accepts or skips as a whole. -/
inductive Segment where
  /-- A leader that no value follows. -/
  | bare (leader : Char) (span : Span)
  /-- Text outside of a command, without the blanks after it. -/
  | stray (text : List Char) (span : Span)
  /-- A command with its body. -/
  | command (c : Command) (span : Span)
  deriving DecidableEq, Repr

/-- The bytes of a segment. -/
def Segment.span : Segment → Span
  | .bare _ s | .stray _ s | .command _ s => s

/-- Does the token go on a body that may or may not contain line breaks? -/
def continues (multiline : Bool) (t : Token) : Bool :=
  t.kind != .leader && (multiline || t.kind != .lineBreak)

/-- The leader with a character. -/
def Leader.ofText (text : List Char) : Leader := if text = ['~'] then .tilde else .caret

/-- The texts of tokens put together. -/
def joined (ts : List Token) : List Char := ts.flatMap Token.text

/-- The command that begins with `leader` and `code`, whose body goes on over `more`. Line breaks end no field data. -/
def commandOf (leader code : Token) (multiline : Bool) (more : List Token) : Segment :=
  let whole := code.text.drop (headLength code.text) ++ joined more
  let body := if multiline then Text.dropRightWhile isLineBreak whole else whole
  .command ⟨Leader.ofText leader.text, headOf code.text, body⟩
    ⟨leader.start, code.stop + Text.byteLength (joined more)⟩

/-- Stray text. -/
def strayOf (ts : List Token) (start : Nat) : Segment :=
  let text := Text.trimRight (joined ts)
  .stray text ⟨start, start + Text.byteLength text⟩

/-- The segments of a list of tokens. -/
def segments : List Token → List Segment
  | [] => []
  | t :: ts =>
    match t.kind with
    | .blank | .lineBreak => segments ts
    | .value | .comma =>
      strayOf (t :: ts.takeWhile (continues false)) t.start :: segments (ts.dropWhile (continues false))
    | .leader =>
      match ts with
      | code :: more =>
        if code.kind = .value then
          let multiline := Verb.isMultiline (Verb.of? (Leader.ofText t.text) (headOf code.text))
          commandOf t code multiline (more.takeWhile (continues multiline)) ::
            segments (more.dropWhile (continues multiline))
        else .bare (t.text.headD '^') t.span :: segments (code :: more)
      | [] => [.bare (t.text.headD '^') t.span]
termination_by ts => ts.length
decreasing_by
  all_goals simp only [List.length_cons]
  · omega
  · exact Nat.lt_succ_of_le (List.dropWhile_sublist _).length_le
  · exact Nat.lt_succ_of_lt (Nat.lt_succ_of_le (List.dropWhile_sublist _).length_le)
  · omega

end ThermalLabel.Zpl

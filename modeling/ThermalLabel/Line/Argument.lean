import ThermalLabel.Text.Basic

/-!
# Quoted arguments

The arguments of a line are separated by commas, and one that holds text stands between double quotes. Inside quotes a
comma separates nothing, and a quote that belongs to the text is escaped, in EPL2 by a backslash and in TSPL by a
backslash with the quote in brackets after it.

* `argumentsText` writes arguments, `splitArguments` reads them.
-/

namespace ThermalLabel

/-- How a quote inside quotes is written. -/
inductive QuoteEscape where
  /-- A backslash in front of it; a backslash is escaped in the same way. -/
  | backslash
  /-- In brackets after a backslash; other backslashes stand for themselves. -/
  | bracket
  deriving DecidableEq, Repr

/-- A character as it stands between quotes. -/
def QuoteEscape.char : QuoteEscape → Char → List Char
  | .backslash, c => if c = '"' ∨ c = '\\' then ['\\', c] else [c]
  | .bracket, c => if c = '"' then ['\\', '[', '"', ']'] else [c]

/-- A text as it stands between quotes. -/
def QuoteEscape.escape (e : QuoteEscape) (content : List Char) : List Char := content.flatMap e.char

/-- An argument to write. -/
inductive Argument where
  | plain (text : List Char)
  | quoted (content : List Char)
  deriving DecidableEq, Repr

/-- The text of an argument. -/
def Argument.text (e : QuoteEscape) : Argument → List Char
  | .plain t => t
  | .quoted c => '"' :: e.escape c ++ ['"']

/-- The text of arguments. -/
def argumentsText (e : QuoteEscape) (as : List Argument) : List Char := Text.joinWith ',' (as.map (Argument.text e))

/--
The arguments in a text without their quotes and escapes, and `none` if a quote is never closed. A quote opens or closes
quotes wherever it stands.
-/
def splitArguments (e : QuoteEscape) : Bool → List Char → Option (List (List Char))
  | false, [] => some [[]]
  | true, [] => none
  | quoted, c :: cs =>
    if c = '"' then splitArguments e (!quoted) cs
    else if c = ',' ∧ quoted = false then (splitArguments e false cs).map ([] :: ·)
    else if c = '\\' ∧ quoted = true then
      match e, cs with
      | .backslash, [] => none
      | .backslash, d :: ds => (splitArguments e true ds).map (Text.extendFirst d)
      | .bracket, '[' :: '"' :: ']' :: ds => (splitArguments e true ds).map (Text.extendFirst '"')
      | .bracket, ds => (splitArguments e true ds).map (Text.extendFirst '\\')
    else (splitArguments e quoted cs).map (Text.extendFirst c)

/-- The arguments in a text. -/
def QuoteEscape.split (e : QuoteEscape) (text : List Char) : Option (List (List Char)) := splitArguments e false text

end ThermalLabel

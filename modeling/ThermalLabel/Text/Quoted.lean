import ThermalLabel.Text.Printable

/-!
# Quoted text in messages

Messages show a text that a caller supplied between double quotes, so that blanks and invisible characters can be seen:
the quote, the backslash and four controls have two-character escapes, and any other unprintable character is written by
its code point in lower-case hex.
-/

namespace ThermalLabel.Text

/-- A character as it stands between the quotes. -/
def quotedChar (c : Char) : List Char :=
  if c = '\x00' then ['\\', '0']
  else if c = '\t' then ['\\', 't']
  else if c = '\r' then ['\\', 'r']
  else if c = '\n' then ['\\', 'n']
  else if c = '"' then ['\\', '"']
  else if c = '\\' then ['\\', '\\']
  else if c.toNat < 0x7F ∧ 0x20 ≤ c.toNat then [c]
  else if isPrintable c then [c]
  else ['\\', 'u', '\x7b'] ++ Nat.toDigits 16 c.toNat ++ ['\x7d']

/-- The text between double quotes, with every character legible. -/
def quoted (s : String) : String :=
  String.ofList ('"' :: s.toList.flatMap quotedChar ++ ['"'])

end ThermalLabel.Text

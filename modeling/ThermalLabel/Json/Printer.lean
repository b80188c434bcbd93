import ThermalLabel.Json.Basic

/-!
# Documents written

`Json.compact` writes a document without blanks; `Json.pretty` puts every item and member on a line of its own, indented
by two spaces for each container around it, and keeps empty containers on one line. Both write characters beyond ASCII
as they are. A `malformed` value has no text, so the text it stands in is malformed at the same place.
-/

namespace ThermalLabel.Json

/-- The text of half a surrogate pair. -/
def loneSurrogateText : List Char := "\"\\ud800\"".toList

/-- A lower-case hex digit. -/
def hexDigit (n : Nat) : Char := Nat.digitChar n

/-- A character between the quotes of a string. -/
def escapeChar (c : Char) : List Char :=
  if c = '"' then ['\\', '"']
  else if c = '\\' then ['\\', '\\']
  else if c = '\x08' then ['\\', 'b']
  else if c = '\x0c' then ['\\', 'f']
  else if c = '\n' then ['\\', 'n']
  else if c = '\r' then ['\\', 'r']
  else if c = '\t' then ['\\', 't']
  else if c.toNat < 0x20 then ['\\', 'u', '0', '0', hexDigit (c.toNat / 16), hexDigit (c.toNat % 16)]
  else [c]

/-- A string with its quotes. -/
def stringText (s : String) : List Char := '"' :: s.toList.flatMap escapeChar ++ ['"']

/-- A key with its quotes. -/
def keyText : Option String → List Char
  | some s => stringText s
  | none => loneSurrogateText

/-- The texts with a separator between each two. -/
def separate (sep : List Char) : List (List Char) → List Char
  | [] => []
  | [t] => t
  | t :: u :: ts => t ++ sep ++ separate sep (u :: ts)

/-! ## Without blanks -/

mutual

/-- The text of a document without blanks. -/
def compact : Json → List Char
  | .null => "null".toList
  | .bool b => (if b then "true" else "false").toList
  | .number n => n.text
  | .string s => stringText s
  | .loneSurrogate => loneSurrogateText
  | .array items => '[' :: separate [','] (compactItems items) ++ [']']
  | .object members => '\x7b' :: separate [','] (compactMembers members) ++ ['\x7d']
  | .malformed => []

/-- The texts of the items. -/
def compactItems : List Json → List (List Char)
  | [] => []
  | v :: vs => compact v :: compactItems vs

/-- The texts of the members. -/
def compactMembers : List (Option String × Json) → List (List Char)
  | [] => []
  | (k, v) :: ms => (keyText k ++ ':' :: compact v) :: compactMembers ms

end

/-! ## On lines -/

/-- A line break and the indentation of a depth. -/
def lineBreak (depth : Nat) : List Char := '\n' :: List.replicate (2 * depth) ' '

/-- A container: its lines one deeper than its brackets, nothing between the brackets if it is empty. -/
def bracketed (opening closing : Char) (depth : Nat) (lines : List (List Char)) : List Char :=
  if lines.isEmpty then [opening, closing]
  else
    opening :: lineBreak (depth + 1) ++ separate (',' :: lineBreak (depth + 1)) lines ++ lineBreak depth ++ [closing]

mutual

/-- The text of a document on lines, inside `depth` containers. -/
def prettyAt (depth : Nat) : Json → List Char
  | .array items => bracketed '[' ']' depth (prettyItems (depth + 1) items)
  | .object members => bracketed '\x7b' '\x7d' depth (prettyMembers (depth + 1) members)
  | .null => "null".toList
  | .bool b => (if b then "true" else "false").toList
  | .number n => n.text
  | .string s => stringText s
  | .loneSurrogate => loneSurrogateText
  | .malformed => []

/-- The lines of the items. -/
def prettyItems (depth : Nat) : List Json → List (List Char)
  | [] => []
  | v :: vs => prettyAt depth v :: prettyItems depth vs

/-- The lines of the members. -/
def prettyMembers (depth : Nat) : List (Option String × Json) → List (List Char)
  | [] => []
  | (k, v) :: ms => (keyText k ++ ':' :: ' ' :: prettyAt depth v) :: prettyMembers depth ms

end

/-- The text of a document on lines. -/
def pretty (v : Json) : List Char := prettyAt 0 v

end ThermalLabel.Json

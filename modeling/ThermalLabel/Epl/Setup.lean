import ThermalLabel.Text.Basic

/-!
# EPL2 setup lines

Lines without effect on elements. A name of one letter counts only if the rest of the line has the form of that
command's arguments, so that other text is not taken for a command.
-/

namespace ThermalLabel.Epl

/-- Are the comma-separated fields of the text all non-empty runs of characters that satisfy `p`? -/
def isFields (p : Char → Bool) (text : List Char) : Bool :=
  (Text.splitOn ',' text).all fun f => !f.isEmpty && f.all p

/-- The number of comma-separated fields. -/
def fieldCount (text : List Char) : Nat := (Text.splitOn ',' text).length

/-- A capital letter or a digit. -/
def isTokenChar (c : Char) : Bool := c.isUpper || c.isDigit

/-- Is a name with the rest of its line a setup command? -/
def isSetup (name rest : List Char) : Bool :=
  match name with
  | ['N'] | ['J', 'F'] | ['J', 'B'] => rest.isEmpty
  | ['P'] => isFields Char.isDigit rest && fieldCount rest ≤ 2
  | ['S'] | ['D'] => isFields Char.isDigit rest && fieldCount rest = 1
  | ['Z'] => rest = ['T'] || rest = ['B']
  | ['I'] => (rest.head?.any Char.isDigit) && isFields isTokenChar rest
  | ['R'] => isFields Char.isDigit rest && fieldCount rest = 2
  | ['O'] => rest.isEmpty || isFields isTokenChar rest
  | _ => false

end ThermalLabel.Epl

import ThermalLabel.Element
import ThermalLabel.Json.Reader
import ThermalLabel.Stock

/-!
# What is wrong with a document

A document is refused either because its text is no JSON, or because a value in it is not what its place asks for.
`Fault.message` is the reason in the second case.
-/

namespace ThermalLabel

/-- What stands where something else is expected. -/
inductive Found where
  | null
  | bool (b : Bool)
  | integer (n : Int)
  | float (x : Binary64)
  | string (s : String)
  | sequence
  | map
  deriving DecidableEq, Repr

/-- The description of what was found. -/
def Found.text : Found → String
  | .null => "null"
  | .bool b => s!"boolean `{b}`"
  | .integer n => s!"integer `{n}`"
  | .float x => "floating point `" ++ String.ofList (((Literal.ofBinary64? x).map Literal.text).getD []) ++ "`"
  | .string s => "string " ++ Text.quoted s
  | .sequence => "sequence"
  | .map => "map"

/-- Why a value of a document is refused. -/
inductive Fault where
  /-- The value is of another type than expected. -/
  | wrongType (found : Found) (expected : String)
  /-- The value is of the expected type and not in its range. -/
  | wrongValue (found : Found) (expected : String)
  /-- An array has too few or too many items. -/
  | wrongLength (length : Nat) (expected : String)
  | unknownVariant (name : String) (variants : List String)
  | missingField (name : String)
  | duplicateField (name : String)
  /-- An element or design with this value does not exist. -/
  | invalid (why : InvalidValue)
  /-- Stock with this value does not exist. -/
  | invalidStock (why : InvalidStock)
  deriving DecidableEq, Repr

/-- The reason in words. -/
def Fault.message : Fault → String
  | .wrongType found expected => "invalid type: " ++ found.text ++ ", expected " ++ expected
  | .wrongValue found expected => "invalid value: " ++ found.text ++ ", expected " ++ expected
  | .wrongLength n expected => s!"invalid length {n}, expected " ++ expected
  | .unknownVariant name variants =>
    s!"unknown variant `{name}`, expected one of " ++ ", ".intercalate (variants.map fun v => s!"`{v}`")
  | .missingField name => s!"missing field `{name}`"
  | .duplicateField name => s!"duplicate field `{name}`"
  | .invalid why => why.message
  | .invalidStock why => why.message

/-- Why a document is refused. -/
inductive DocumentError where
  /-- The text is no JSON. -/
  | malformed
  | fault (f : Fault)
  deriving DecidableEq, Repr

end ThermalLabel

import ThermalLabel.Language
import ThermalLabel.Element

/-!
# Tokens

How each language names rotations and symbologies. The tokens of one language are different, so each token is read back
as what it names; blanks around it and the case of letters do not matter.
-/

namespace ThermalLabel

/-- Does a token name what `written` names? -/
def matchesToken (token written : String) : Bool :=
  Text.sameUpToCase written.toList (Text.trim token.toList)

/-- The token of a rotation. -/
def Rotation.token : Language → Rotation → String
  | .zpl, .deg0 => "N"
  | .zpl, .deg90 => "R"
  | .zpl, .deg180 => "I"
  | .zpl, .deg270 => "B"
  | .epl, .deg0 => "0"
  | .epl, .deg90 => "1"
  | .epl, .deg180 => "2"
  | .epl, .deg270 => "3"
  | .tspl, .deg0 => "0"
  | .tspl, .deg90 => "90"
  | .tspl, .deg180 => "180"
  | .tspl, .deg270 => "270"

/-- The rotation that a token names. -/
def Rotation.ofToken? (l : Language) (token : String) : Option Rotation :=
  Rotation.all.find? fun r => matchesToken token (r.token l)

/-- The token of a symbology. In ZPL it is the code of the command that selects it. -/
def Symbology.token : Language → Symbology → String
  | .zpl, .ean13 => "BE"
  | .zpl, .ean8 => "B8"
  | .zpl, .code128 => "BC"
  | .zpl, .code39 => "B3"
  | .zpl, .upcA => "BU"
  | .zpl, .upcE => "B9"
  | .zpl, .itf => "B2"
  | .epl, .ean13 => "E30"
  | .epl, .ean8 => "E80"
  | .epl, .code128 => "1"
  | .epl, .code39 => "3"
  | .epl, .upcA => "UA0"
  | .epl, .upcE => "UE0"
  | .epl, .itf => "2"
  | .tspl, .ean13 => "EAN13"
  | .tspl, .ean8 => "EAN8"
  | .tspl, .code128 => "128"
  | .tspl, .code39 => "39"
  | .tspl, .upcA => "UPCA"
  | .tspl, .upcE => "UPCE"
  | .tspl, .itf => "25"

/-- The symbology that a token names. -/
def Symbology.ofToken? (l : Language) (token : String) : Option Symbology :=
  Symbology.all.find? fun s => matchesToken token (s.token l)

/-- A token names the rotation it was written for. -/
theorem Rotation.ofToken?_token (l : Language) (r : Rotation) : ofToken? l (r.token l) = some r := by
  cases l <;> cases r <;> rfl

/-- A token names the symbology it was written for. -/
theorem Symbology.ofToken?_token (l : Language) (s : Symbology) : ofToken? l (s.token l) = some s := by
  cases l <;> cases s <;> rfl

end ThermalLabel

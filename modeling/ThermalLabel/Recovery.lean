import ThermalLabel.Epl.Recovery
import ThermalLabel.Tspl.Recovery
import ThermalLabel.Zpl.Recovery

/-!
# Recovery

`recover` reads a program in any of the languages. It always succeeds: what it cannot use is in the findings.
-/

namespace ThermalLabel

/-- What a program draws, in characters. -/
def recoverChars : Language → List Char → Recovered
  | .zpl => Zpl.recover
  | .epl => Epl.recover
  | .tspl => Tspl.recover

/-- What a program draws. -/
def recover (l : Language) (program : String) : Recovered := recoverChars l program.toList

end ThermalLabel

import ThermalLabel.Text.Basic
import ThermalLabel.Text.Quoted

/-!
# Printer languages

The three languages in which a label can be written. Each has an identifier and a display name, and is looked up by its
identifier or a few other spellings, whatever their case and the blanks around them.
-/

namespace ThermalLabel

/-- A control language of thermal printers. -/
inductive Language where
  /-- ZPL II: scalable fonts, and a stream of commands that begin with a caret or a tilde. -/
  | zpl
  /-- EPL2: bitmap fonts, one command on a line, no QR codes. -/
  | epl
  /-- TSPL: bitmap fonts, one command on a line, rotations in degrees. -/
  | tspl
  deriving DecidableEq, Repr

/-- A name that no language has. -/
structure UnknownLanguage where
  name : String
  deriving DecidableEq, Repr

/-- The text of the error. -/
def UnknownLanguage.message (e : UnknownLanguage) : String :=
  "unknown printer language " ++ Text.quoted e.name ++ " (expected zpl, epl or tspl)"

namespace Language

/-- Every language. -/
def all : List Language := [.zpl, .epl, .tspl]

/-- The identifier. -/
def id : Language → String
  | .zpl => "zpl"
  | .epl => "epl"
  | .tspl => "tspl"

/-- The name for display. -/
def name : Language → String
  | .zpl => "ZPL II"
  | .epl => "EPL2"
  | .tspl => "TSPL"

/-- The spellings under which a language is found. -/
def spellings : Language → List String
  | .zpl => ["zpl", "zpl2", "zplii"]
  | .epl => ["epl", "epl2"]
  | .tspl => ["tspl", "tspl2"]

/-- The language with a spelling equal to `name`, up to case and blanks at the ends. -/
def ofName (name : String) : Except UnknownLanguage Language :=
  let wanted := String.ofList (Text.lower (Text.trim name.toList))
  match all.find? fun l => wanted ∈ l.spellings with
  | some l => .ok l
  | none => .error ⟨name⟩

theorem ofName_id (l : Language) : ofName l.id = .ok l := by
  cases l <;> rfl

end Language

end ThermalLabel

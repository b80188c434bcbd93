import ThermalLabel.Diagnostic.Code
import ThermalLabel.Document.Design
import ThermalLabel.Document.Diagnostic
import ThermalLabel.Json.Printer

/-!
# Reports on the terminal

Diagnostics are shown with their code, message and context, and counted in a last line. Counts and codes are coloured by
how serious they are.
-/

namespace ThermalLabel.Cli

/-- The colours of the terminal. -/
inductive Colour where
  | red
  | yellow
  | blue
  | cyan
  deriving DecidableEq, Repr

/-- The number of a colour. -/
def Colour.code : Colour → Nat
  | .red => 31
  | .yellow => 33
  | .blue => 34
  | .cyan => 36

/-- A text in a colour. -/
def Colour.paint (c : Colour) (text : String) : String := s!"\x1b[{c.code}m" ++ text ++ "\x1b[0m"

/-- The keys and values of a context on one line. -/
def contextNote (c : Context) : String := ", ".intercalate (c.map fun (k, v) => k ++ "=" ++ v)

/-- The lines that show a diagnostic. -/
def diagnosticLines (d : Diagnostic) : List String :=
  d.text :: match d.context with
    | none | some [] => []
    | some c => ["  = note: " ++ contextNote c]

/-- The number of diagnostics of a severity. -/
def countOf (s : Severity) (ds : List Diagnostic) : Nat := ds.countP fun d => d.severity = s

/-- A count with its noun in a colour, unless it is zero. -/
def countPart (n : Nat) (one many : String) (c : Colour) : List String :=
  if n = 0 then [] else [c.paint (toString n ++ " " ++ if n = 1 then one else many)]

/-- The line that counts diagnostics, if there are any. -/
def summaryLines (ds : List Diagnostic) : List String :=
  let parts := countPart (countOf .error ds) "error" "errors" .red ++
    countPart (countOf .warn ds) "warning" "warnings" .yellow ++ countPart (countOf .info ds) "info" "info" .blue
  if parts.isEmpty then [] else [", ".intercalate parts]

/-- Diagnostics and their summary. -/
def reportLines (ds : List Diagnostic) : List String := ds.flatMap diagnosticLines ++ summaryLines ds

/-- Lines as text. -/
def linesText (ls : List String) : String := String.join (ls.map (· ++ "\n"))

/-- A document on lines, with all its members in the order of their keys. -/
def sortedDocument (members : List (String × Json)) : String :=
  String.ofList (Json.ofMembers members).sortKeys.pretty ++ "\n"

end ThermalLabel.Cli

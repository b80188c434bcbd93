import ThermalLabel.Diagnostic.Code
import ThermalLabel.HexEscape
import ThermalLabel.Language
import ThermalLabel.Element

/-!
# Findings

Reading a program passes over what it cannot use and records a finding: a cause and the bytes concerned.
`Finding.diagnostic` is its report.
-/

namespace ThermalLabel

/-- Why part of a program was passed over. -/
inductive Cause where
  /-- A command or line of no known kind. -/
  | unrecognized (command : String)
  /-- Text outside of any command. -/
  | stray (text : String)
  /-- A field of a known command that cannot be read. -/
  | malformed (command field value reason : String)
  /-- A command whose fields are numbers that no element can have. -/
  | refused (command : String) (why : InvalidValue)
  /-- An escape in field data that cannot be read; the data is taken as written. -/
  | undecodable (command : String) (escape : HexEscape.Malformed)
  /-- Something to draw without a place to draw it. -/
  | unplaced (l : Language)
  /-- The whole program has no element. -/
  | nothing
  deriving DecidableEq, Repr

namespace Cause

/-- The code of the report. -/
def code : Cause → Code
  | .unrecognized _ | .stray _ => .unrecognizedCommand
  | .malformed .. | .refused .. | .undecodable .. => .malformedArguments
  | .unplaced _ => .contentWithoutPosition
  | .nothing => .noElements

/-- Only a program without elements is reported for information; all else is a warning. -/
def severity : Cause → Severity
  | .nothing => .info
  | _ => .warn

/-- The message of the report. -/
def message : Cause → String
  | .unrecognized command => "unrecognized command " ++ command
  | .stray _ => "stray content outside of a command"
  | .malformed command field _ reason => command ++ ": invalid " ++ field ++ " (" ++ reason ++ ")"
  | .refused command why => command ++ ": " ++ why.message
  | .undecodable command escape => command ++ ": " ++ escape.message ++ "; field data kept verbatim"
  | .unplaced _ => "content command without a preceding position command"
  | .nothing => "no elements recovered"

/-- The facts of the report. -/
def context : Cause → Option Context
  | .unrecognized command => some [("command", command)]
  | .stray text => some [("command", text)]
  | .malformed command field value _ => some [("command", command), ("field", field), ("value", value)]
  | .refused command _ => some [("command", command)]
  | .undecodable command escape =>
    some [("command", command), ("field", "data"), ("offset", toString escape.offset)]
  | .unplaced l => some [("language", l.id)]
  | .nothing => none

end Cause

/-- A cause and the bytes of the program it is about. -/
structure Finding where
  cause : Cause
  span : Span
  deriving DecidableEq, Repr

/-- The report of a finding. -/
def Finding.diagnostic (f : Finding) : Diagnostic where
  id := f.cause.code.id
  severity := f.cause.severity
  message := f.cause.message
  span := some f.span
  context := f.cause.context

end ThermalLabel

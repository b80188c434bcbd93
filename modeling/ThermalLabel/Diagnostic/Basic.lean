/-!
# Diagnostics

A diagnostic reports something that was dropped or approximated: its code, how serious it is, a message, the bytes of
the program it is about, and facts for tools as keys and values. Reading and writing labels never fails; all that went
wrong is in diagnostics.
-/

namespace ThermalLabel

/-- A range of bytes from `start` up to but not including `stop`. -/
structure Span where
  start : Nat
  stop : Nat
  deriving DecidableEq, Repr, Inhabited

/-- Why two offsets are no span: the end comes before the start. -/
structure ReversedSpan where
  start : Nat
  stop : Nat
  deriving DecidableEq, Repr

/-- The text of the error. -/
def ReversedSpan.message (e : ReversedSpan) : String := s!"Span end ({e.stop}) < start ({e.start})"

/-- The span between two offsets. -/
def Span.between (start stop : Nat) : Except ReversedSpan Span :=
  if start ≤ stop then .ok ⟨start, stop⟩ else .error ⟨start, stop⟩

/-- The span without bytes at an offset. -/
def Span.at (offset : Nat) : Span := ⟨offset, offset⟩

/-- How serious a diagnostic is. -/
inductive Severity where
  | error
  | warn
  | info
  deriving DecidableEq, Repr, Inhabited

/-- The name of a severity. -/
def Severity.name : Severity → String
  | .error => "error"
  | .warn => "warn"
  | .info => "info"

/-- Every severity. -/
def Severity.all : List Severity := [.error, .warn, .info]

/-- Keys and values, sorted by key and with one value for a key. -/
abbrev Context := List (String × String)

/-- The context in which `key` has the value `value`. -/
def Context.insert (key value : String) : Context → Context
  | [] => [(key, value)]
  | (k, v) :: rest =>
    if key < k then (key, value) :: (k, v) :: rest
    else if key = k then (key, value) :: rest
    else (k, v) :: Context.insert key value rest

/-- The context of a list of keys and values; the last value of a key counts. -/
def Context.ofList (pairs : List (String × String)) : Context :=
  pairs.foldl (fun c (k, v) => Context.insert k v c) []

/-- A report about a program or a label. -/
structure Diagnostic where
  id : String
  severity : Severity
  message : String
  span : Option Span := none
  context : Option Context := none
  deriving DecidableEq, Repr

/-- The diagnostic on one line. -/
def Diagnostic.text (d : Diagnostic) : String := d.severity.name ++ "[" ++ d.id ++ "]: " ++ d.message

end ThermalLabel

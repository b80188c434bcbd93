import ThermalLabel.Document.Reader
import ThermalLabel.Document.Element
import ThermalLabel.Emission
import ThermalLabel.Recovery

/-!
# Diagnostic and result documents

Diagnostics are read and written; what was recovered from a program and what was written as one are only written. A span
or context that a diagnostic lacks is left out, and so is a page that is not known.
-/

namespace ThermalLabel

namespace Document

/-- A span. Its ends are not compared. -/
def spanRecord : Record Span := ⟨"Span", default, [
  ⟨"start", .required, fun v s => (offset v).map fun start => { s with start }⟩,
  ⟨"end", .required, fun v s => (offset v).map fun stop => { s with stop }⟩]⟩

/-- The keys and values of members; the last value of a key counts. -/
def contextPairs : List (Option String × Json) → Checked (List (String × String))
  | [] => .ok []
  | (none, _) :: _ => malformed
  | (some k, v) :: ms => do
    let value ← text v
    return (k, value) :: (← contextPairs ms)

/-- A context. -/
def context (v : Json) : Checked Context :=
  match v with
  | .object members => (contextPairs members).map Context.ofList
  | _ => mismatch "a map" v

/-- A diagnostic. -/
def diagnosticRecord : Record Diagnostic := ⟨"Diagnostic", { id := "", severity := .error, message := "" }, [
  ⟨"id", .required, fun v d => (text v).map fun id => { d with id }⟩,
  ⟨"severity", .required, fun v d =>
    (directVariant Severity.all Severity.name v).map fun severity => { d with severity }⟩,
  ⟨"message", .required, fun v d => (text v).map fun message => { d with message }⟩,
  ⟨"span", .nullable, fun v d => (nullable (spanRecord.read .direct) v).map fun span => { d with span }⟩,
  ⟨"context", .nullable, fun v d => (nullable Document.context v).map fun context => { d with context }⟩]⟩

/-- A diagnostic. -/
def diagnostic (v : Json) : Checked Diagnostic := diagnosticRecord.read .direct v

end Document

/-- A span in a document. -/
def Span.document (s : Span) : Json := .ofMembers [("start", .ofNat s.start), ("end", .ofNat s.stop)]

/-- A context in a document. -/
def Context.document (c : Context) : Json := .ofMembers (c.map fun (k, v) => (k, .string v))

/-- A member if there is a value. -/
def optionalMember (key : String) (v : Option Json) : List (String × Json) := (v.map fun v => (key, v)).toList

/-- A diagnostic in a document. -/
def Diagnostic.document (d : Diagnostic) : Json := .ofMembers <|
  [("id", .string d.id), ("severity", .string d.severity.name), ("message", .string d.message)] ++
    optionalMember "span" (d.span.map Span.document) ++ optionalMember "context" (d.context.map Context.document)

/-- Diagnostics in a document. -/
def diagnosticsDocument (ds : List Diagnostic) : Json := .array (ds.map Diagnostic.document)

/-- What was recovered, in a document. -/
def Recovered.document (r : Recovered) : Json := .ofMembers <|
  [("elements", .array (r.elements.map Element.document)), ("diagnostics", diagnosticsDocument r.diagnostics),
    ("skipped", .ofNat r.skipped)] ++ optionalMember "page" (r.page.map Extent.document)

end ThermalLabel

import ThermalLabel.Zpl.Format
import ThermalLabel.Zpl.Segment
import ThermalLabel.Recovery.Assembly

/-!
# Recovering a ZPL program

The segments of a program are obeyed one after the other, each in the state that those before it left.
-/

namespace ThermalLabel.Zpl

/-- The events of one segment, and the state after it. -/
def Segment.events (f : Format) : Segment → List Event × Format
  | .bare leader span => ([.step (.skip (.unrecognized (String.ofList [leader]))) span], f)
  | .stray text span => ([.step (.skip (.stray (String.ofList text))) span], f)
  | .command c span =>
    let o := f.obey c
    (o.notes.map (fun cause => .note ⟨cause, span⟩) ++ [.step o.step span], o.format)

/-- The events of segments in a state. -/
def events (f : Format) : List Segment → List Event
  | [] => []
  | s :: ss => (s.events f).1 ++ events (s.events f).2 ss

/-- What a program draws. -/
def recover (program : List Char) : Recovered :=
  assemble .zpl (Text.byteLength program) (events {} (segments (tokens 0 program)))

end ThermalLabel.Zpl

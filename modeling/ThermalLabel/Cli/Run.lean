import ThermalLabel.Cli.Invocation
import ThermalLabel.Cli.Report
import ThermalLabel.Conversion

/-!
# Running commands

What a command line does, given what its files and standard input hold: the texts it writes, the files it leaves and
its exit code. What has been done stays done if the command fails later (`Task`): a file that has been opened is empty
then, or holds as much as it took. A command that fails exits with 1; in strict mode the exit code is also 1 if anything
was skipped. A bad command line exits with 2.
-/

namespace ThermalLabel.Cli

/-- Why a file cannot be read or written. -/
inductive FileFault where
  | notFound
  | notDirectory
  | isDirectory
  | notText
  /-- What the system says. -/
  | other (text : String)
  deriving DecidableEq, Repr

/-- The text of the error. -/
def FileFault.message : FileFault → String
  | .notFound => "No such file or directory (os error 2)"
  | .notDirectory => "Not a directory (os error 20)"
  | .isDirectory => "Is a directory (os error 21)"
  | .notText => "stream did not contain valid UTF-8"
  | .other t => t

/-- What a command line finds: standard input, files, how they can be written, and who reads the output. -/
structure Surroundings where
  stdin : List UInt8
  read : String → Except FileFault (List UInt8)
  /-- Why a file cannot be opened to be written. -/
  writeFault : String → Option FileFault
  /-- How many bytes a file takes once it is open, and why it takes no more. -/
  room : String → Option (Nat × FileFault) := fun _ => none
  /-- Is the output shown on a terminal? -/
  terminal : Bool := false

/-- Why a command fails. -/
inductive Failure where
  | stdin (why : FileFault)
  | read (path : String) (why : FileFault)
  | write (path : String) (why : FileFault)
  | design (path : String) (why : DocumentError)
  | profile (path : String) (why : DocumentError)
  | measures (why : InvalidStock)
  | page (why : InvalidStock)
  | noPage
  | elements (why : InvalidValue)
  deriving DecidableEq, Repr

/-- The reason why a document is refused. -/
def documentReason : DocumentError → String
  | .malformed => "the text is not JSON"
  | .fault f => f.message

/-- What failed. -/
def Failure.context : Failure → String
  | .stdin _ => "failed to read stdin"
  | .read path _ => s!"failed to read {path}"
  | .write path _ => s!"failed to write {path}"
  | .design path _ => s!"invalid design in {path}"
  | .profile path _ => s!"invalid profile {path}"
  | .measures _ => "invalid label size"
  | .page _ => "the declared page size is not a valid label size"
  | .noPage => "the program declares no page size; pass --profile or --width-mm/--height-mm"
  | .elements _ => "parsed elements do not form a valid design"

/-- Why it failed, the immediate reason first. -/
def Failure.causes : Failure → List String
  | .stdin why | .read _ why | .write _ why => [why.message]
  | .design _ why => [documentReason why]
  | .profile _ why => ["invalid profile JSON: " ++ documentReason why, documentReason why]
  | .measures why | .page why => [why.message]
  | .noPage => []
  | .elements why => [why.message]

/-- The lines that list reasons; several are numbered. -/
def causeLines : List String → List String
  | [] => []
  | [c] => ["", "Caused by:", "    " ++ c]
  | cs => "" :: "Caused by:" :: cs.zipIdx.map fun (c, i) => s!"    {i}: " ++ c

/-- The text of a failure. -/
def Failure.text (f : Failure) : String := linesText (("Error: " ++ f.context) :: causeLines f.causes)

/-- What has been done so far. -/
structure Traces where
  stdout : String := ""
  stderr : String := ""
  /-- The files that have been opened to be written, and what they hold now. -/
  files : List (String × List UInt8) := []
  /-- The file that has been written to its end, and its text. -/
  written : Option (String × String) := none
  deriving DecidableEq, Repr

/-- What a command line did. -/
structure Outcome extends Traces where
  exit : Nat
  deriving DecidableEq, Repr

/-- A command at work. A failure takes nothing back of what has been done. -/
abbrev Task (α : Type) : Type := ExceptT Failure (StateM Traces) α

/-! ## Input and output -/

/-- The text of bytes. -/
def textOf (bytes : List UInt8) : Except FileFault String :=
  match Text.decode? bytes with
  | some cs => .ok (String.ofList cs)
  | none => .error .notText

/-- The text of a file. -/
def readFile (w : Surroundings) (path : String) : Except Failure String :=
  match w.read path >>= textOf with
  | .ok t => .ok t
  | .error e => .error (.read path e)

/-- The text of a file, or of standard input for a dash. -/
def readInput (w : Surroundings) (path : String) : Except Failure String :=
  if path = "-" then
    match textOf w.stdin with
    | .ok t => .ok t
    | .error e => .error (.stdin e)
  else readFile w path

/-- Writes to standard output. -/
def print (text : String) : Task Unit := modify fun t => { t with stdout := t.stdout ++ text }

/-- Writes to the standard error stream. -/
def report (text : String) : Task Unit := modify fun t => { t with stderr := t.stderr ++ text }

/-- What a file that has been opened holds now. -/
def Traces.held (t : Traces) (path : String) : List UInt8 := (t.files.lookup path).getD []

/-- A file now holds these bytes. -/
def Traces.hold (t : Traces) (path : String) (bytes : List UInt8) : Traces :=
  { t with files := (path, bytes) :: t.files.filter (·.1 ≠ path) }

/-- Opens a file to write it. It is made if there is none, and emptied if there is one. -/
def openFile (w : Surroundings) (path : String) : Task Unit := do
  if let some why := w.writeFault path then throw (.write path why)
  modify (·.hold path [])

/-- Those of some bytes that an open file takes, and the failure if it does not take all of them. -/
def Surroundings.taken (w : Surroundings) (path : String) (bytes : List UInt8) : List UInt8 × Option FileFault :=
  match w.room path with
  | none => (bytes, none)
  | some (room, why) => (bytes.take room, if room < bytes.length then some why else none)

/-- Writes bytes at the end of an open file. -/
def append (w : Surroundings) (path : String) (bytes : List UInt8) : Task Unit := do
  let (taken, fault) := w.taken path bytes
  modify fun t => t.hold path (t.held path ++ taken)
  if let some why := fault then throw (.write path why)

/-- Writes a program to a file, if one is named. -/
def writeProgram (w : Surroundings) (program : String) (out : Option String) : Task Unit := do
  if let some path := out then
    openFile w path
    append w path (Text.encode program.toList)
    modify ({ · with written := some (path, program) })

/-! ## Commands -/

/-- Writes a design as a program. Each command answers with the number of commands and elements it skipped. -/
def generate (w : Surroundings) (mode : OutputMode) (path : String) (l : Language) (out : Option String) :
    Task Nat := do
  let source ← readInput w path
  match Document.readText Document.design source with
  | .error e => throw (.design path e)
  | .ok d =>
    let e := emit l d.stock d.elements
    writeProgram w e.program out
    match mode with
    | .json =>
      print (sortedDocument [("language", .string l.id), ("program", .string e.program),
        ("emitted", .ofNat e.emitted), ("skipped", .ofNat e.skipped),
        ("diagnostics", diagnosticsDocument e.diagnostics)])
    | .pretty =>
      if out.isNone then print e.program
      report (linesText (reportLines e.diagnostics))
    return e.skipped

/-- Lists the elements of a program. -/
def parse (w : Surroundings) (mode : OutputMode) (path : String) (l : Language) : Task Nat := do
  let source ← readInput w path
  let r := recover l source
  match mode with
  | .json => print (String.ofList r.document.pretty ++ "\n")
  | .pretty =>
    print (String.ofList (Json.array (r.elements.map Element.document)).pretty ++ "\n")
    report (linesText (reportLines r.diagnostics))
  return r.skipped

/-- The stock to convert to. -/
def chooseStock (w : Surroundings) (size : SizeSource) (r : Recovered) : Except Failure Stock :=
  match size with
  | .profile path => do
    match Document.readText Document.stock (← readFile w path) with
    | .ok s => return s
    | .error e => throw (.profile path e)
  | .measures width height dpi =>
    match Stock.make width height dpi Stock.defaultGap with
    | .ok s => .ok s
    | .error e => .error (.measures e)
  | .page dpi =>
    match r.stock dpi with
    | .ok s => .ok s
    | .error .noPage => .error .noPage
    | .error (.invalid e) => .error (.page e)

/-- Writes the elements of a program in another language. -/
def convert (w : Surroundings) (mode : OutputMode) (path : String) (source target : Language) (size : SizeSource)
    (out : Option String) : Task Nat := do
  let text ← readInput w path
  let r := recover source text
  let stock ← chooseStock w size r
  match Design.ofElements stock r.elements with
  | .error e => throw (.elements e)
  | .ok d =>
    let e := emit target d.stock d.elements
    writeProgram w e.program out
    let skipped := r.skipped + e.skipped
    match mode with
    | .json =>
      print (sortedDocument [("from", .string source.id), ("to", .string target.id),
        ("program", .string e.program), ("emitted", .ofNat e.emitted), ("skipped", .ofNat skipped),
        ("parse_diagnostics", diagnosticsDocument r.diagnostics),
        ("generate_diagnostics", diagnosticsDocument e.diagnostics)])
    | .pretty =>
      if out.isNone then print e.program
      report (linesText (reportLines (r.diagnostics ++ e.diagnostics)))
    return skipped

/-- Explains a code. -/
def explain (mode : OutputMode) (id : String) : Task Nat := do
  let text := explain? id
  match mode, text with
  | .json, _ => print (sortedDocument [("id", .string id), ("explanation", (text.map Json.string).getD .null)])
  | .pretty, some t => print (Colour.cyan.paint id ++ ": " ++ t ++ "\n")
  | .pretty, none => print (id ++ ": (no explanation available)\n")
  return 0

/-- Carries out a request. -/
def Request.perform (w : Surroundings) (mode : OutputMode) : Request → Task Nat
  | .generate path l out => Cli.generate w mode path l out
  | .parse path l => Cli.parse w mode path l
  | .convert path source target size out => Cli.convert w mode path source target size out
  | .explain id => Cli.explain mode id

/-- The files that a request reads. -/
def Request.inputs : Request → List String
  | .generate path _ _ | .parse path _ => [path]
  | .convert path _ _ (.profile profile) _ => [path, profile]
  | .convert path _ _ _ _ => [path]
  | .explain _ => []

/-- The mode of output: as told, else for people on a terminal and for tools elsewhere. -/
def Switches.mode (s : Switches) (w : Surroundings) : OutputMode :=
  s.output.getD (if w.terminal then .pretty else .json)

/-- The outcome of a request. -/
def Request.outcome (w : Surroundings) (s : Switches) (r : Request) : Outcome :=
  match (r.perform w (s.mode w)).run.run {} with
  | (.ok skipped, t) => { toTraces := t, exit := if s.strict && skipped != 0 then 1 else 0 }
  | (.error f, t) => { toTraces := { t with stderr := t.stderr ++ f.text }, exit := 1 }

/-- The files that a command line reads; a dash is standard input. -/
def inputs (args : List String) : List String :=
  match Invocation.ofArguments args with
  | .ok (.run _ r) => r.inputs
  | _ => []

/-- The name and version of the program. -/
def versionText : String := "labelc 0.1.0\n"

/-- How to use the program. -/
def helpText : String := linesText [
  "Compile label designs to ZPL II, EPL2 and TSPL, and parse such programs back", "",
  "Usage: labelc [--output pretty|json] [-v|--verbose] [--strict] COMMAND", "",
  "Commands:",
  "  generate DESIGN --lang L [--out F]",
  "  parse FILE --lang L",
  "  convert FILE --from L --to L [--profile F | --width-mm N --height-mm N] [--dpi N] [--out F]",
  "  explain ID"]

/-- The outcome of a command line. -/
def run (w : Surroundings) (args : List String) : Outcome :=
  match Invocation.ofArguments args with
  | .error e => { exit := 2, stderr := linesText ["error: " ++ e.message] }
  | .ok .version => { exit := 0, stdout := versionText }
  | .ok .help => { exit := 0, stdout := helpText }
  | .ok (.run s r) => r.outcome w s

end ThermalLabel.Cli

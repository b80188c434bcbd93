import ThermalLabel.Language
import ThermalLabel.Number.Text

/-!
# Command lines

The command line is one command with its arguments. Three switches may stand before or after the command; if a value is
given in both places, the later one counts. An option takes its value from the next argument or after an equals sign; a
value that begins with a dash needs the equals sign, but a dash alone is a value. After two dashes all arguments are
operands. Each option may be given once in front of the command and once after it.

* `Invocation.ofArguments` reads a command line or says what is wrong with it.
-/

namespace ThermalLabel.Cli

/-- How results are written. -/
inductive OutputMode where
  /-- For people: programs and coloured text. -/
  | pretty
  /-- For tools: one document. -/
  | json
  deriving DecidableEq, Repr

/-- The switches of all commands. -/
structure Switches where
  /-- How results are written; if not given, the terminal decides. -/
  output : Option OutputMode := none
  /-- Accepted for scripts; reports are complete without it. -/
  verbose : Bool := false
  /-- Count anything that was skipped as a failure. -/
  strict : Bool := false
  deriving DecidableEq, Repr

/-- Where the size of the stock comes from. -/
inductive SizeSource where
  | profile (path : String)
  | measures (width height : Binary64) (dpi : UInt32)
  /-- The page that the program declares. -/
  | page (dpi : UInt32)
  deriving DecidableEq, Repr

/-- What to do. -/
inductive Request where
  | generate (design : String) (l : Language) (out : Option String)
  | parse (file : String) (l : Language)
  | convert (file : String) (source target : Language) (size : SizeSource) (out : Option String)
  | explain (id : String)
  deriving DecidableEq, Repr

/-- What a command line asks for. -/
inductive Invocation where
  | run (switches : Switches) (r : Request)
  | version
  | help
  deriving DecidableEq, Repr

/-- What is wrong with a command line. -/
inductive UsageError where
  | noCommand
  | unknownCommand (name : String)
  | unknownArgument (arg : String)
  | missingValue (option : String)
  | needlessValue (option : String)
  | repeated (option : String)
  | missing (what : String)
  | badValue (option value : String)
  | conflict (one other : String)
  deriving DecidableEq, Repr

/-- The text of the error. -/
def UsageError.message : UsageError → String
  | .noCommand => "a command is required"
  | .unknownCommand n => s!"there is no command '{n}'"
  | .unknownArgument a => s!"unexpected argument '{a}'"
  | .missingValue o => s!"--{o} requires a value"
  | .needlessValue o => s!"--{o} takes no value"
  | .repeated o => s!"--{o} cannot be used more than once"
  | .missing w => s!"{w} is required"
  | .badValue o v => s!"'{v}' is no value of --{o}"
  | .conflict a b => s!"--{a} cannot be used with --{b}"

/-! ## Options -/

/-- An option: its name, its letter, and whether it takes a value. -/
structure OptionSpec where
  name : String
  letter : Option Char := none
  valued : Bool := true
  deriving DecidableEq, Repr

/-- The options of all commands. -/
def switchSpecs : List OptionSpec :=
  [{ name := "output" }, { name := "verbose", letter := some 'v', valued := false },
    { name := "strict", valued := false }]

/-- The option that asks for help. -/
def helpSpec : OptionSpec := { name := "help", letter := some 'h', valued := false }

/-- The option that asks for the version. -/
def versionSpec : OptionSpec := { name := "version", letter := some 'V', valued := false }

/-- The option that names an output file. -/
def outSpec : OptionSpec := { name := "out", letter := some 'o' }

/-- The option that names the language of a program. -/
def langSpec : OptionSpec := { name := "lang", letter := some 'l' }

/-- The arguments read so far: options with their values, and operands. -/
structure Given where
  options : List (String × String) := []
  operands : List String := []
  deriving DecidableEq, Repr

/-- The value of an option. -/
def Given.get? (g : Given) (name : String) : Option String := g.options.lookup name

/-- One more option; only the names of modes are values of `output`. -/
def Given.addOption (g : Given) (name value : String) : Except UsageError Given :=
  if (g.get? name).isSome then .error (.repeated name)
  else if name = "output" ∧ value ≠ "pretty" ∧ value ≠ "json" then .error (.badValue name value)
  else .ok { g with options := g.options ++ [(name, value)] }

/-- One more operand. -/
def Given.addOperand (g : Given) (value : String) : Given := { g with operands := g.operands ++ [value] }

/-- The part of an argument before its first equals sign, and the part after it if there is one. -/
def splitEquals (cs : List Char) : List Char × Option (List Char) :=
  match cs.dropWhile (· ≠ '=') with
  | [] => (cs, none)
  | _ :: value => (cs.takeWhile (· ≠ '='), some value)

/-- Is the argument an option rather than a value? -/
def isOption : List Char → Bool
  | '-' :: _ :: _ => true
  | _ => false

/-- What the arguments say to do next: go on, stop at a word that may be a command, or give a text and end. -/
inductive Progress where
  | given (g : Given)
  | command (g : Given) (name : String) (rest : List String)
  | help
  | version

/-- An option without a value. -/
def flag (spec : OptionSpec) (g : Given) : Except UsageError Progress :=
  if spec = helpSpec then .ok .help
  else if spec = versionSpec then .ok .version
  else (g.addOption spec.name "").map .given

/-- The options in a run of letters after a dash, and whether the last of them still needs a value. -/
def letters (specs : List OptionSpec) (g : Given) : List Char → Except UsageError (Progress × Option OptionSpec)
  | [] => .ok (.given g, none)
  | c :: cs =>
    match specs.find? fun s => s.letter = some c with
    | none => .error (.unknownArgument (String.ofList ['-', c]))
    | some spec =>
      if spec.valued then
        match cs with
        | [] => .ok (.given g, some spec)
        | '=' :: value => (g.addOption spec.name (String.ofList value)).map fun g => (.given g, none)
        | value => (g.addOption spec.name (String.ofList value)).map fun g => (.given g, none)
      else
        match flag spec g with
        | .ok (.given g) => letters specs g cs
        | .ok stop => .ok (stop, none)
        | .error e => .error e

/-- One option argument, and whether it still needs a value. -/
def optionArgument (specs : List OptionSpec) (g : Given) (arg : List Char) :
    Except UsageError (Progress × Option OptionSpec) :=
  match arg with
  | '-' :: '-' :: long =>
    let (name, value) := splitEquals long
    match specs.find? fun s => s.name = String.ofList name, value with
    | none, _ => .error (.unknownArgument (String.ofList arg))
    | some spec, none => if spec.valued then .ok (.given g, some spec) else (flag spec g).map (·, none)
    | some spec, some v =>
      if spec.valued then (g.addOption spec.name (String.ofList v)).map fun g => (.given g, none)
      else .error (.needlessValue spec.name)
  | '-' :: short => letters specs g short
  | _ => .error (.unknownArgument (String.ofList arg))

/-- Reads arguments; `stopAtWord` says whether the first operand is a command. -/
def readArguments (specs : List OptionSpec) (stopAtWord : Bool) (g : Given) : List String → Except UsageError Progress
  | [] => .ok (.given g)
  | arg :: rest =>
    if arg = "--" then
      if stopAtWord then
        match rest with
        | [] => .ok (.given g)
        | a :: _ => .error (.unknownArgument a)
      else .ok (.given (rest.foldl Given.addOperand g))
    else if isOption arg.toList then
      match optionArgument specs g arg.toList with
      | .error e => .error e
      | .ok (.given g, none) => readArguments specs stopAtWord g rest
      | .ok (.given g, some spec) =>
        match rest with
        | [] => .error (.missingValue spec.name)
        | value :: rest =>
          if isOption value.toList then .error (.missingValue spec.name)
          else match g.addOption spec.name value with
            | .error e => .error e
            | .ok g => readArguments specs stopAtWord g rest
      | .ok (stop, _) => .ok stop
    else if stopAtWord then .ok (.command g arg rest)
    else readArguments specs stopAtWord (g.addOperand arg) rest

/-! ## Values -/

/-- The value of an option, read by `value`. -/
def optional {α : Type} (g : Given) (name : String) (value : List Char → Option α) : Except UsageError (Option α) :=
  match g.get? name with
  | none => .ok none
  | some v =>
    match value v.toList with
    | some a => .ok (some a)
    | none => .error (.badValue name v)

/-- The language an option names; it must be given. -/
def language (g : Given) (name : String) : Except UsageError Language := do
  match ← optional g name fun v => (Language.ofName (String.ofList v)).toOption with
  | some l => return l
  | none => throw (.missing ("--" ++ name))

/-- The one operand that a command takes. -/
def operand (g : Given) (what : String) : Except UsageError String :=
  match g.operands with
  | [] => .error (.missing what)
  | [a] => .ok a
  | _ :: b :: _ => .error (.unknownArgument b)

/-- A density: a whole number that is a word. A minus sign is allowed in front of zero. -/
def readDpi (cs : List Char) : Option UInt32 :=
  match cs with
  | '-' :: ds => (readDigits ds).bind fun n => if n = 0 then some 0 else none
  | _ => readWord cs

/-- The density in dots per inch of most printers. -/
def defaultDpi : UInt32 := 203

/-- The source of the stock's size: a profile, or both measures, or the page. -/
def sizeSource (g : Given) : Except UsageError SizeSource := do
  let width ← optional g "width-mm" Binary64.read?
  let height ← optional g "height-mm" Binary64.read?
  let dpi := (← optional g "dpi" readDpi).getD defaultDpi
  match g.get? "profile", width, height with
  | some path, none, none => return .profile path
  | some _, some _, _ => throw (.conflict "profile" "width-mm")
  | some _, none, some _ => throw (.conflict "profile" "height-mm")
  | none, some w, some h => return .measures w h dpi
  | none, some _, none => throw (.missing "--height-mm")
  | none, none, some _ => throw (.missing "--width-mm")
  | none, none, none => return .page dpi

/-! ## Commands -/

/-- A command: its names, its options besides the switches, and how its arguments make a request. -/
structure CommandSpec where
  names : List String
  options : List OptionSpec
  request : Given → Except UsageError Request

/-- Every command. -/
def commands : List CommandSpec := [
  { names := ["generate", "gen"], options := [langSpec, outSpec]
    request := fun g => do return Request.generate (← operand g "DESIGN") (← language g "lang") (g.get? "out") },
  { names := ["parse"], options := [langSpec]
    request := fun g => do return Request.parse (← operand g "FILE") (← language g "lang") },
  { names := ["convert"]
    options := [{ name := "from" }, { name := "to" }, { name := "profile" }, { name := "width-mm" },
      { name := "height-mm" }, { name := "dpi" }, outSpec]
    request := fun g => do
      return Request.convert (← operand g "FILE") (← language g "from") (← language g "to") (← sizeSource g)
        (g.get? "out") },
  { names := ["explain"], options := [], request := fun g => do return Request.explain (← operand g "ID") }]

/-- The mode with a name. -/
def OutputMode.ofName? (s : String) : Option OutputMode :=
  if s = "pretty" then some .pretty else if s = "json" then some .json else none

/-- The switches given before and after the command. -/
def switches (before after : Given) : Switches where
  output := ((after.get? "output").or (before.get? "output")).bind OutputMode.ofName?
  verbose := (before.get? "verbose").isSome || (after.get? "verbose").isSome
  strict := (before.get? "strict").isSome || (after.get? "strict").isSome

/-- The invocation of a command with the arguments after its name. -/
def CommandSpec.invocation (c : CommandSpec) (before : Given) (args : List String) : Except UsageError Invocation :=
  match readArguments (switchSpecs ++ [helpSpec] ++ c.options) false {} args with
  | .error e => .error e
  | .ok .help => .ok .help
  | .ok (.given after) => (c.request after).map (.run (switches before after))
  | .ok _ => .error .noCommand

/-- The command with a name. -/
def command? (name : String) : Option CommandSpec := commands.find? fun c => name ∈ c.names

/-- The command that explains commands: all of them, or the one that is named. -/
def helpInvocation : List String → Except UsageError Invocation
  | [] => .ok .help
  | [name] => if (command? name).isSome || name = helpSpec.name then .ok .help else .error (.unknownCommand name)
  | _ :: extra :: _ => .error (.unknownCommand extra)

/-- What a command line asks for. -/
def Invocation.ofArguments (args : List String) : Except UsageError Invocation :=
  match readArguments (switchSpecs ++ [helpSpec, versionSpec]) true {} args with
  | .error e => .error e
  | .ok .help => .ok .help
  | .ok .version => .ok .version
  | .ok (.given _) => .error .noCommand
  | .ok (.command before name rest) =>
    if name = helpSpec.name then helpInvocation rest
    else match command? name with
      | some c => c.invocation before rest
      | none => .error (.unknownCommand name)

end ThermalLabel.Cli

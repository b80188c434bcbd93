import ThermalLabel.Cli.Run

/-!
# The program

Reads what the command line names, runs it, and writes the result. Everything it decides is decided by `Cli.run`; this
module only moves bytes.
-/

namespace ThermalLabel.Cli

/-- The fault behind an error of the system. -/
def FileFault.ofError : IO.Error → FileFault
  | .noFileOrDirectory .. => .notFound
  | .inappropriateType _ 20 _ => .notDirectory
  | .inappropriateType _ 21 _ => .isDirectory
  | e => .other (toString e)

/-- The bytes of a file, or why it cannot be read. -/
def contentsOf (path : String) : IO (Except FileFault (List UInt8)) := do
  try
    return .ok (← IO.FS.readBinFile path).toList
  catch e =>
    return .error (.ofError e)

/-- Opens a file to write it, or says why it cannot be opened. -/
def openToWrite (path : String) : IO (Except FileFault IO.FS.Handle) := do
  try
    return .ok (← IO.FS.Handle.mk path .write)
  catch e =>
    return .error (.ofError e)

/-- Writes a text to an open file, or says why it is not taken as a whole. -/
def writeTo (file : IO.FS.Handle) (text : String) : IO (Option FileFault) := do
  try
    file.putStr text
    file.flush
    return none
  catch e =>
    return some (.ofError e)

/-- All bytes of standard input. -/
partial def drain (stream : IO.FS.Stream) (seen : ByteArray) : IO ByteArray := do
  let chunk ← stream.read 65536
  if chunk.isEmpty then return seen else drain stream (seen ++ chunk)

/-- What the command line finds. -/
def surroundings (paths : List String) : IO Surroundings := do
  let stdin ← if "-" ∈ paths then drain (← IO.getStdin) .empty else pure .empty
  let files ← paths.mapM fun path => do return (path, ← contentsOf path)
  return {
    stdin := stdin.toList
    read := fun path => (files.lookup path).getD (.error .notFound)
    writeFault := fun _ => none
    terminal := ← (← IO.getStdout).isTty }

/--
Runs a command line. If its file cannot be opened or does not take the text, it is run again as one that fails for that
reason.
-/
def runWriting (w : Surroundings) (args : List String) : IO Outcome := do
  let done := run w args
  match done.written with
  | none => return done
  | some (path, text) =>
    match ← openToWrite path with
    | .error fault => return run { w with writeFault := fun _ => some fault } args
    | .ok file =>
      match ← writeTo file text with
      | none => return done
      | some fault => return run { w with room := fun _ => some (0, fault) } args

/-- Runs a command line and shows what it wrote. -/
def runAndShow (args : List String) : IO UInt32 := do
  let done ← runWriting (← surroundings (inputs args)) args
  (← IO.getStdout).putStr done.stdout
  (← IO.getStderr).putStr done.stderr
  return done.exit.toUInt32

end ThermalLabel.Cli

/-- The program. -/
def main (args : List String) : IO UInt32 := ThermalLabel.Cli.runAndShow args

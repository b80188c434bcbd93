import ThermalLabel.Text.Utf8
import ThermalLabel.Recovery.Assembly

/-!
# Lines of a program

EPL2 and TSPL programs have one command on a line. Blank lines are dropped and the others trimmed, so that line endings
with a carriage return make no difference; a line keeps the offset of its first character.

* `lines` lists the lines of a program, `recoverLines` puts the steps of all of them together.
-/

namespace ThermalLabel

/-- A line without the blanks around it, and the offset of its first byte. -/
structure Line where
  text : List Char
  start : Nat
  deriving DecidableEq, Repr

/-- The bytes of a line. -/
def Line.span (l : Line) : Span := ⟨l.start, l.start + Text.byteLength l.text⟩

/-- The line of a piece of a program between two line feeds, unless it is blank. -/
def Line.ofPiece? (offset : Nat) (piece : List Char) : Option Line :=
  let text := Text.trim piece
  if text = [] then none else some ⟨text, offset + Text.byteLength (piece.takeWhile Text.isBlank)⟩

/-- The lines of consecutive pieces, the first of which starts at `offset`. -/
def linesFrom (offset : Nat) : List (List Char) → List Line
  | [] => []
  | p :: ps => (Line.ofPiece? offset p).toList ++ linesFrom (offset + Text.byteLength p + 1) ps

/-- The lines of a program. -/
def lines (program : List Char) : List Line := linesFrom 0 (Text.splitOn '\n' program)

/-- The steps of a line, or why it is skipped, as events. -/
def Line.events (l : Line) (steps : Except Cause (List Step)) : List Event :=
  match steps with
  | .ok ss => ss.map fun s => .step s l.span
  | .error cause => [.step (.skip cause) l.span]

/-- What a program draws, if `interpret` gives the steps of each line. -/
def recoverLines (l : Language) (interpret : List Char → Except Cause (List Step)) (program : List Char) : Recovered :=
  assemble l (Text.byteLength program) ((lines program).flatMap fun line => line.events (interpret line.text))

end ThermalLabel

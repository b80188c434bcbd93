import ThermalLabel.Language.Token

/-!
# ZPL commands

A command is a leader, a head that names it, and a body up to the next command. The head has two characters; only the
font command has one, because the name of the font follows it without a comma.

* `Verb.of?` says what a command is for.
-/

namespace ThermalLabel.Zpl

/-- The character that begins a command. -/
inductive Leader where
  | caret
  | tilde
  deriving DecidableEq, Repr

/-- The character itself. -/
def Leader.char : Leader → Char
  | .caret => '^'
  | .tilde => '~'

/-- A command. The head is in upper case. -/
structure Command where
  leader : Leader
  head : List Char
  body : List Char
  deriving DecidableEq, Repr

namespace Command

/-- The leader and the head. -/
def code (c : Command) : List Char := c.leader.char :: c.head

/-- The command as written in a program. -/
def text (c : Command) : List Char := c.code ++ c.body

/-- The caret command with a head and a body. -/
def caret (head : String) (body : List Char) : Command := ⟨.caret, head.toList, body⟩

end Command

/-- The number of characters in the head of a command whose code and body begin with `text`. -/
def headLength : List Char → Nat
  | 'A' :: _ | 'a' :: _ => 1
  | _ => 2

/-- The head at the beginning of a command's text, in upper case. -/
def headOf (text : List Char) : List Char := Text.upper (text.take (headLength text))

/-- What a command is for. -/
inductive Verb where
  /-- Sets the position of the next field. -/
  | origin
  /-- Ends a field. -/
  | separator
  /-- The data of a field. -/
  | data
  /-- A comment. -/
  | comment
  /-- Announces hex escapes in field data. -/
  | hexIndicator
  /-- The font of a field. -/
  | font
  /-- The font of fields without one. -/
  | defaultFont
  /-- The rotation of fields without one. -/
  | defaultRotation
  /-- The width and alignment of a field. -/
  | block
  /-- The bar width and height of barcodes without one. -/
  | barDefaults
  /-- Makes a field a barcode. -/
  | barcode (s : Symbology)
  /-- Makes a field a QR code. -/
  | qrCode
  /-- Draws a rectangle. -/
  | graphic
  /-- The width of the page. -/
  | pageWidth
  /-- The length of the page. -/
  | pageLength
  /-- No effect on elements. -/
  | setup
  deriving DecidableEq, Repr

/-- The verbs of caret commands by head, barcodes apart. -/
def caretVerbs : List (String × Verb) :=
  [("FO", .origin), ("FT", .origin), ("FS", .separator), ("FD", .data), ("FV", .data), ("FX", .comment),
    ("FH", .hexIndicator), ("A", .font), ("CF", .defaultFont), ("FW", .defaultRotation), ("FB", .block),
    ("BY", .barDefaults), ("BQ", .qrCode), ("GB", .graphic), ("PW", .pageWidth), ("LL", .pageLength),
    ("XA", .setup), ("XZ", .setup), ("CI", .setup), ("LH", .setup), ("PQ", .setup), ("PR", .setup), ("MD", .setup),
    ("MN", .setup), ("MM", .setup), ("LS", .setup), ("LT", .setup), ("PO", .setup), ("JU", .setup)]

/-- The heads of tilde commands, all without effect on elements. -/
def tildeHeads : List String := ["SD", "TA"]

/-- What the command with a leader and head is for, if it is known. -/
def Verb.of? (leader : Leader) (head : List Char) : Option Verb :=
  let name := String.ofList head
  match leader with
  | .tilde => if name ∈ tildeHeads then some .setup else none
  | .caret => (caretVerbs.lookup name).or ((Symbology.ofToken? .zpl name).map .barcode)

/-- Does the body of the command go on over line breaks? -/
def Verb.isMultiline : Option Verb → Bool
  | some .data | some .comment => true
  | _ => false

end ThermalLabel.Zpl

import ThermalLabel.Json.Lexeme

/-!
# Documents read

`Json.read` builds the value of a text from its lexemes, with the containers that are still open on a stack. Where a
lexeme does not fit, `malformed` takes its place and all open containers end there. What comes after the first value is
not read; `Reading.trailing` says whether there is anything.
-/

namespace ThermalLabel.Json

/-- A container still open: what it holds so far, last first, and the key whose value comes next. -/
inductive Open where
  | array (done : List Json)
  | object (done : List (Option String × Json))
  | member (done : List (Option String × Json)) (key : Option String)

/-- The container with one more value; a value without a key is none that a member could have. -/
def Open.add (v : Json) : Open → Open
  | .array done => .array (v :: done)
  | .object done => .object ((none, v) :: done)
  | .member done key => .object ((key, v) :: done)

/-- The container's value. -/
def Open.close : Open → Json
  | .array done => .array done.reverse
  | .object done => .object done.reverse
  | .member done key => .object ((key, .malformed) :: done).reverse

/-- The value of a text that breaks off inside the open containers, innermost first. -/
def breakOff (v : Json) : List Open → Json
  | [] => v
  | o :: outer => breakOff (o.add v).close outer

/-- What may come next in the innermost open container. -/
inductive Awaiting where
  /-- A value, after a comma, a colon or at the beginning. -/
  | value
  /-- A value, or the end of an array just begun. -/
  | valueOrEnd
  /-- A key, after a comma. -/
  | key
  /-- A key, or the end of an object just begun. -/
  | keyOrEnd
  /-- The colon after a key. -/
  | colon
  /-- A comma or the end of the container. -/
  | separator
  deriving DecidableEq

/-- The first value of a text, and whether more lexemes follow it. -/
structure Reading where
  value : Json
  trailing : Bool

/-- The value of a lexeme that is one by itself. -/
def Lexeme.value? : Lexeme → Option Json
  | .null => some .null
  | .bool b => some (.bool b)
  | .number n => some (.number n)
  | .string (some s) => some (.string s)
  | .string none => some .loneSurrogate
  | _ => none

/-- Reads on with what may come next and the containers that are open. -/
def build : Awaiting → List Open → List Lexeme → Reading
  | .value, stack, x :: xs => start stack x xs
  | .valueOrEnd, stack, x :: xs =>
    match x, stack with
    | .closeArray, o :: outer => finish outer o.close xs
    | _, _ => start stack x xs
  | .key, .object done :: outer, .string k :: xs => build .colon (.member done k :: outer) xs
  | .keyOrEnd, .object done :: outer, x :: xs =>
    match x with
    | .string k => build .colon (.member done k :: outer) xs
    | .closeObject => finish outer (Open.object done).close xs
    | _ => ⟨breakOff .malformed (.object done :: outer), false⟩
  | .colon, stack, .colon :: xs => build .value stack xs
  | .separator, .array done :: outer, x :: xs =>
    match x with
    | .comma => build .value (.array done :: outer) xs
    | .closeArray => finish outer (Open.array done).close xs
    | _ => ⟨breakOff .malformed (.array done :: outer), false⟩
  | .separator, .object done :: outer, x :: xs =>
    match x with
    | .comma => build .key (.object done :: outer) xs
    | .closeObject => finish outer (Open.object done).close xs
    | _ => ⟨breakOff .malformed (.object done :: outer), false⟩
  | _, stack, _ => ⟨breakOff .malformed stack, false⟩
where
  /-- A value begins with `x`. -/
  start (stack : List Open) (x : Lexeme) (xs : List Lexeme) : Reading :=
    match x with
    | .openArray => build .valueOrEnd (.array [] :: stack) xs
    | .openObject => build .keyOrEnd (.object [] :: stack) xs
    | _ => match x.value? with
      | some v => finish stack v xs
      | none => ⟨breakOff .malformed stack, false⟩
  /-- A value is complete. -/
  finish (stack : List Open) (v : Json) (xs : List Lexeme) : Reading :=
    match stack with
    | [] => ⟨v, !xs.isEmpty⟩
    | o :: outer => build .separator (o.add v :: outer) xs

/-- The first value of a text. -/
def read (cs : List Char) : Reading := build .value [] (lexemes cs)

end ThermalLabel.Json

import ThermalLabel.Document.Fault

/-!
# Reading values of documents

Values are read from the left, and the first problem is the result: `malformed` where the text breaks off, a fault where
a value is not as expected. A record is an object with known members or an array of their values in order; members that
it does not know are skipped, and it starts from a draft that its members then fill in.

Some values are read straight from the text, others only after the whole value around them was read; `Access` tells the
two apart, because too many items are noticed as bad text in the first case and as a wrong length in the second.
-/

namespace ThermalLabel

/-- The result of reading a document. -/
abbrev Checked (α : Type) := Except DocumentError α

namespace Document

/-- A refusal with a fault. -/
def fault {α : Type} (f : Fault) : Checked α := .error (.fault f)

/-- A refusal of text that is no JSON. -/
def malformed {α : Type} : Checked α := .error .malformed

/-- How a value is reached. -/
inductive Access where
  /-- Straight from the text. -/
  | direct
  /-- In a value that was read as a whole before. -/
  | buffered
  deriving DecidableEq

/-- The refusal of a value of a type other than expected. Only numbers are read to their end for it. -/
def mismatch {α : Type} (expected : String) : Json → Checked α
  | .null => fault (.wrongType .null expected)
  | .bool b => fault (.wrongType (.bool b) expected)
  | .number n =>
    match n.numeric? with
    | some (.integer i) => fault (.wrongType (.integer i) expected)
    | some (.float x) => fault (.wrongType (.float x) expected)
    | none => malformed
  | .string s => fault (.wrongType (.string s) expected)
  | .loneSurrogate => malformed
  | .array _ => fault (.wrongType .sequence expected)
  | .object _ => fault (.wrongType .map expected)
  | .malformed => malformed

/-! ## Scalars -/

/-- A whole number from `low` to `high`. -/
def integer (low high : Int) (expected : String) (v : Json) : Checked Int :=
  match v with
  | .number n =>
    match n.numeric? with
    | some (.integer i) => if low ≤ i ∧ i ≤ high then .ok i else fault (.wrongValue (.integer i) expected)
    | _ => mismatch expected v
  | _ => mismatch expected v

/-- A word. -/
def word (v : Json) : Checked UInt32 := (integer 0 4294967295 "u32" v).map fun i => UInt32.ofNat i.toNat

/-- A positive number of dots. -/
def positive (v : Json) : Checked PositiveDots :=
  (integer 1 4294967295 "a nonzero u32" v).map fun i => PositiveDots.atLeastOne (UInt32.ofNat i.toNat)

/-- A stacking order. -/
def stacking (v : Json) : Checked Int32 := (integer (-2147483648) 2147483647 "i32" v).map Int32.ofInt

/-- An offset in bytes. -/
def offset (v : Json) : Checked Nat := (integer 0 18446744073709551615 "usize" v).map Int.toNat

/-- A double; whole numbers count. -/
def double (v : Json) : Checked Binary64 :=
  match v with
  | .number n =>
    match n.numeric? with
    | some (.integer i) => .ok (Binary64.ofRatio (i < 0) i.natAbs 1)
    | some (.float x) => .ok x
    | none => malformed
  | _ => mismatch "f64" v

/-- A truth value. -/
def boolean (v : Json) : Checked Bool :=
  match v with
  | .bool b => .ok b
  | _ => mismatch "a boolean" v

/-- A text. -/
def text (v : Json) : Checked String :=
  match v with
  | .string s => .ok s
  | _ => mismatch "a string" v

/-- A list, item after item. -/
def list {α : Type} (item : Json → Checked α) (v : Json) : Checked (List α) :=
  match v with
  | .array items => items.mapM item
  | _ => mismatch "a sequence" v

/-- Null, or a value. -/
def nullable {α : Type} (value : Json → Checked α) (v : Json) : Checked (Option α) :=
  match v with
  | .null => .ok none
  | _ => (value v).map some

/-- A value that the domain may refuse. -/
def valid {α : Type} (r : Except InvalidValue α) : Checked α :=
  match r with
  | .ok a => .ok a
  | .error e => fault (.invalid e)

/-! ## Named variants -/

/-- The variant with a name. -/
def variant {α : Type} (all : List α) (name : α → String) (s : String) : Checked α :=
  match all.find? fun a => name a = s with
  | some a => .ok a
  | none => fault (.unknownVariant s (all.map name))

/-- A variant straight from the text: its name, or an object with its name and null. -/
def directVariant {α : Type} (all : List α) (name : α → String) : Json → Checked α
  | .string s => variant all name s
  | .object ((some k, v) :: rest) => do
    let a ← variant all name k
    match v with
    | .null => if rest.isEmpty then return a else malformed
    | _ => mismatch "unit" v
  | _ => malformed

/-- A variant in a value read before: its name, or an object with its name and null or an empty object. -/
def bufferedVariant {α : Type} (all : List α) (name : α → String) (v : Json) : Checked α :=
  match v with
  | .string s => variant all name s
  | .object [(some k, w)] => do
    let a ← variant all name k
    match w with
    | .null | .object [] => return a
    | _ => mismatch "unit" w
  | .object _ => fault (.wrongValue .map "map with a single key")
  | _ => mismatch "string or map" v

/-! ## Skipped values -/

mutual

/-- Is the value read to its end? Texts and numbers that could not be used do not matter. -/
def isComplete : Json → Bool
  | .malformed => false
  | .array items => areComplete items
  | .object members => membersComplete members
  | _ => true

/-- `isComplete` for all items. -/
def areComplete : List Json → Bool
  | [] => true
  | v :: vs => isComplete v && areComplete vs

/-- `isComplete` for the values of all members. -/
def membersComplete : List (Option String × Json) → Bool
  | [] => true
  | (_, v) :: ms => isComplete v && membersComplete ms

end

mutual

/-- Can the value be kept, inside containers that leave room for `room` more? All its texts and numbers are usable. -/
def isStorable (room : Nat) : Json → Bool
  | .malformed | .loneSurrogate => false
  | .number n => n.numeric?.isSome
  | .array items => room ≠ 0 && areStorable (room - 1) items
  | .object members => room ≠ 0 && membersStorable (room - 1) members
  | _ => true

/-- `isStorable` for all items. -/
def areStorable (room : Nat) : List Json → Bool
  | [] => true
  | v :: vs => isStorable room v && areStorable room vs

/-- `isStorable` for all members. -/
def membersStorable (room : Nat) : List (Option String × Json) → Bool
  | [] => true
  | (k, v) :: ms => k.isSome && isStorable room v && membersStorable room ms

end

/-! ## Records -/

/-- When a field may be missing. -/
inductive Presence where
  | required
  /-- An object may lack it, an array not. -/
  | nullable
  | optional
  deriving DecidableEq

/-- A field of a record: its name, and how its value changes the draft. -/
structure Field (δ : Type) where
  name : String
  presence : Presence
  read : Json → δ → Checked δ

/-- A record: its name in messages, the draft to start from, and its fields. -/
structure Record (δ : Type) where
  name : String
  start : δ
  fields : List (Field δ)

/-- A number of elements in words. -/
def elementCount (n : Nat) : String := if n = 1 then "1 element" else s!"{n} elements"

namespace Record

variable {δ : Type} (r : Record δ)

/-- The draft after the members of an object, given the names seen before. -/
def readMembers (seen : List String) (d : δ) : List (Option String × Json) → Checked δ
  | [] =>
    match r.fields.find? fun f => f.presence = .required ∧ f.name ∉ seen with
    | some f => fault (.missingField f.name)
    | none => .ok d
  | (none, _) :: _ => malformed
  | (some k, v) :: ms =>
    match r.fields.find? fun f => f.name = k with
    | none => if isComplete v then readMembers seen d ms else malformed
    | some f =>
      if k ∈ seen then fault (.duplicateField k)
      else match f.read v d with
        | .ok d => readMembers (k :: seen) d ms
        | .error e => .error e

/-- The draft after the items of an array, given the fields not read yet and the number of those that were. -/
def readItems (access : Access) (d : δ) (done : Nat) : List (Field δ) → List Json → Checked δ
  | [], [] => .ok d
  | [], v :: vs =>
    match access with
    | .direct => malformed
    | .buffered => fault (.wrongLength (done + (v :: vs).length) (elementCount done ++ " in sequence"))
  | f :: fs, [] =>
    match (f :: fs).findIdx? fun f => f.presence ≠ .optional with
    | some i => fault (.wrongLength (done + i) ("struct " ++ r.name ++ " with " ++ elementCount r.fields.length))
    | none => .ok d
  | f :: fs, v :: vs =>
    match f.read v d with
    | .ok d => readItems access d (done + 1) fs vs
    | .error e => .error e

/-- The draft of a record. -/
def read (access : Access) (v : Json) : Checked δ :=
  match v with
  | .object members => r.readMembers [] r.start members
  | .array items => r.readItems access r.start 0 r.fields items
  | _ => mismatch ("struct " ++ r.name) v

end Record

/-- The value of a whole text: the value itself is read first, then nothing may follow it. -/
def readText {α : Type} (value : Json → Checked α) (source : String) : Checked α :=
  let reading := Json.read source.toList
  match value reading.value with
  | .ok a => if reading.trailing then malformed else .ok a
  | .error e => .error e

end Document

end ThermalLabel

import Mathlib.Data.List.Forall2
import ThermalLabel.Json.Reader
import ThermalLabel.Proofs.Json.Number

/-!
# Documents read back

`Json.compact` and `Json.pretty` write the same lexemes with different blanks between them, so one argument serves both:
a text `ReadsAs` a value if it is read as that value in every container and before everything that does not go on a
number. Containers keep this, with any blanks after the brackets and commas (`Container.readsAs`).

A document is proper if it has no place that is no JSON, and its numbers are proper. **The text of a proper document is
read as the document** (`Json.read_compact`, `Json.read_pretty`).
-/

namespace ThermalLabel.Json

/-! ## Values in a text -/

/-- A text that is read as a value wherever one may stand. -/
def ReadsAs (text : List Char) (v : Json) : Prop :=
  ∀ rest, Ended rest → ∀ s, s = .value ∨ s = .valueOrEnd → ∀ stack,
    build s stack (lexemes (text ++ rest)) = build.finish stack v (lexemes rest)

/-- Every lexeme but one begins a value, where an array might end instead. -/
theorem build_eq_start {s : Awaiting} (hs : s = .value ∨ s = .valueOrEnd) {x : Lexeme} (hx : x ≠ .closeArray)
    (stack : List Open) (xs : List Lexeme) : build s stack (x :: xs) = build.start stack x xs := by
  rcases hs with rfl | rfl
  · rw [build]
  · rw [build]
    exact fun _ _ h _ => hx h

theorem start_of_value? {x : Lexeme} {v : Json} (h : x.value? = some v) (stack : List Open) (xs : List Lexeme) :
    build.start stack x xs = build.finish stack v xs := by
  rw [build.start.eq_def]
  split
  · cases h
  · cases h
  · rw [h]

/-- A text of one lexeme that is a value by itself. -/
theorem readsAs_of_value? {text : List Char} {x : Lexeme} {v : Json} (hx : x.value? = some v)
    (h : ∀ rest, Ended rest → lexemes (text ++ rest) = x :: lexemes rest) : ReadsAs text v := by
  intro rest hrest s hs stack
  have hclose : x ≠ .closeArray := by
    rintro rfl
    cases hx
  rw [h rest hrest, build_eq_start hs hclose, start_of_value? hx]

theorem readsAs_null : ReadsAs "null".toList .null := readsAs_of_value? rfl fun rest _ => lexemes_null rest

theorem readsAs_bool (b : Bool) : ReadsAs (if b then "true" else "false").toList (.bool b) :=
  readsAs_of_value? rfl fun rest _ => lexemes_bool b rest

theorem readsAs_number {n : Literal} (h : n.Proper) : ReadsAs n.text (.number n) :=
  readsAs_of_value? rfl fun _ => h.lexemes_text

theorem readsAs_string (s : String) : ReadsAs (stringText s) (.string s) :=
  readsAs_of_value? rfl fun rest _ => lexemes_stringText s rest

/-! ## Containers -/

/-- A kind of containers: the brackets around them, and how their entries are read. -/
structure Container (α : Type) where
  opening : Char × Lexeme
  closing : Char × Lexeme
  /-- What may come after the opening bracket. -/
  first : Awaiting
  /-- What comes after a comma. -/
  next : Awaiting
  /-- The container while it is open, its entries last first. -/
  holding : List α → Open
  value : List α → Json
  opening_mark : isSpace opening.1 = false ∧ mark? opening.1 = some opening.2
  closing_mark : isSpace closing.1 = false ∧ mark? closing.1 = some closing.2
  opening_ne : opening.2 ≠ .closeArray
  closing_ended : goesOn closing.1 = false
  start_opening : ∀ stack xs, build.start stack opening.2 xs = build first (holding [] :: stack) xs
  first_closing : ∀ outer xs, build first (holding [] :: outer) (closing.2 :: xs) = build.finish outer (value []) xs
  separator_comma : ∀ done outer xs,
    build .separator (holding done :: outer) (.comma :: xs) = build next (holding done :: outer) xs
  separator_closing : ∀ done outer xs,
    build .separator (holding done :: outer) (closing.2 :: xs) = build.finish outer (value done.reverse) xs

/-- Arrays, whose entries are values. -/
def arrays : Container Json where
  opening := ('[', .openArray)
  closing := (']', .closeArray)
  first := .valueOrEnd
  next := .value
  holding := .array
  value := .array
  opening_mark := ⟨rfl, rfl⟩
  closing_mark := ⟨rfl, rfl⟩
  opening_ne := nofun
  closing_ended := rfl
  start_opening _ _ := by rw [build.start]
  first_closing _ _ := by rw [build]; rfl
  separator_comma _ _ _ := by rw [build]
  separator_closing _ _ _ := by rw [build]; rfl

/-- Objects, whose entries are members. -/
def objects : Container (Option String × Json) where
  opening := ('\x7b', .openObject)
  closing := ('\x7d', .closeObject)
  first := .keyOrEnd
  next := .key
  holding := .object
  value := .object
  opening_mark := ⟨rfl, rfl⟩
  closing_mark := ⟨rfl, rfl⟩
  opening_ne := nofun
  closing_ended := rfl
  start_opening _ _ := by rw [build.start]
  first_closing _ _ := by rw [build]; rfl
  separator_comma _ _ _ := by rw [build]
  separator_closing _ _ _ := by rw [build]; rfl

theorem goesOn_of_isSpace {c : Char} (h : isSpace c = true) : goesOn c = false := by
  simp only [isSpace, Bool.or_eq_true, beq_iff_eq] at h
  rcases h with ((rfl | rfl) | rfl) | rfl
  all_goals rfl

/-- Blanks do not go on a number either. -/
theorem ended_spaces {cs rest : List Char} (h : cs.all isSpace = true) (hrest : Ended rest) : Ended (cs ++ rest) := by
  cases cs with
  | nil => exact hrest
  | cons c cs => exact ended_cons (goesOn_of_isSpace (List.all_eq_true.1 h c List.mem_cons_self)) _

theorem separate_cons (sep t : List Char) (ts : List (List Char)) :
    separate sep (t :: ts) = t ++ ts.flatMap (sep ++ ·) := by
  induction ts generalizing t with
  | nil => rw [separate, List.flatMap_nil, List.append_nil]
  | cons u ts ih => rw [separate, ih, List.flatMap_cons, List.append_assoc, List.append_assoc]

namespace Container

variable {α : Type} (c : Container α)

/-- A text that is read as an entry of the container. -/
def Enters (text : List Char) (a : α) : Prop :=
  ∀ rest, Ended rest → ∀ s, s = c.next ∨ s = c.first → ∀ done outer,
    build s (c.holding done :: outer) (lexemes (text ++ rest)) =
      build .separator (c.holding (a :: done) :: outer) (lexemes rest)

/-- Neither a comma nor a closing bracket goes on a number. -/
theorem ended_entries (gap : List Char) {after : List Char} (hafter : after.all isSpace = true)
    (texts : List (List Char)) (rest : List Char) :
    Ended (texts.flatMap (',' :: gap ++ ·) ++ (after ++ c.closing.1 :: rest)) := by
  cases texts with
  | nil =>
    rw [List.flatMap_nil, List.nil_append]
    exact ended_spaces hafter (ended_cons c.closing_ended rest)
  | cons t texts => exact ended_cons rfl _

/-- After an entry come further ones, each behind a comma, up to the closing bracket. -/
theorem build_entries {gap after : List Char} (hgap : gap.all isSpace = true) (hafter : after.all isSpace = true)
    {texts : List (List Char)} {entries : List α} (h : List.Forall₂ c.Enters texts entries) (done : List α)
    (outer : List Open) (rest : List Char) :
    build .separator (c.holding done :: outer)
        (lexemes (texts.flatMap (',' :: gap ++ ·) ++ (after ++ c.closing.1 :: rest))) =
      build.finish outer (c.value (done.reverse ++ entries)) (lexemes rest) := by
  -- The entries read so far are held by the open container, so the induction is on those still to come.
  induction h generalizing done with
  | nil =>
    rw [List.flatMap_nil, List.nil_append, lexemes_spaces hafter, lexemes_mark c.closing_mark.1 c.closing_mark.2,
      c.separator_closing, List.append_nil]
  | @cons t a texts entries ht _ ih =>
    have hended := c.ended_entries gap hafter texts rest
    rw [List.flatMap_cons, List.append_assoc, List.append_assoc, List.cons_append, lexemes_mark rfl rfl,
      c.separator_comma, lexemes_spaces hgap, ht _ hended _ (.inl rfl), ih, List.reverse_cons, List.append_assoc]
    rfl

/-- **A container is read as its entries are**, with any blanks between them. -/
theorem readsAs {before gap after : List Char} (hbefore : before.all isSpace = true)
    (hgap : gap.all isSpace = true) (hafter : after.all isSpace = true) {texts : List (List Char)} {entries : List α}
    (h : List.Forall₂ c.Enters texts entries) :
    ReadsAs (c.opening.1 :: (before ++ (separate (',' :: gap) texts ++ (after ++ [c.closing.1]))))
      (c.value entries) := by
  intro rest _ s hs stack
  rw [List.cons_append, lexemes_mark c.opening_mark.1 c.opening_mark.2, build_eq_start hs c.opening_ne,
    c.start_opening, List.append_assoc, List.append_assoc, List.append_assoc, lexemes_spaces hbefore]
  -- Only right after the opening bracket may the container end instead of going on.
  cases h with
  | nil =>
    rw [separate, List.nil_append, lexemes_spaces hafter, List.singleton_append,
      lexemes_mark c.closing_mark.1 c.closing_mark.2, c.first_closing]
  | @cons t a texts entries ht h =>
    have hended := c.ended_entries gap hafter texts rest
    rw [separate_cons, List.append_assoc, List.singleton_append, ht _ hended _ (.inr rfl),
      c.build_entries hgap hafter h]
    rfl

theorem readsAs_bracketed (depth : Nat) {texts : List (List Char)} {entries : List α}
    (h : List.Forall₂ c.Enters texts entries) :
    ReadsAs (bracketed c.opening.1 c.closing.1 depth texts) (c.value entries) := by
  have hbreak : ∀ n, (lineBreak n).all isSpace = true := by
    intro n
    rw [lineBreak, List.all_cons, List.all_replicate]
    split <;> rfl
  rw [bracketed]
  split
  · rename_i hempty
    obtain rfl := List.isEmpty_iff.1 hempty
    exact c.readsAs List.all_nil List.all_nil List.all_nil h
  · have hread := c.readsAs (hbreak (depth + 1)) (hbreak (depth + 1)) (hbreak depth) h
    simp only [List.append_assoc, List.cons_append] at hread ⊢
    exact hread

end Container

theorem ReadsAs.enters {text : List Char} {v : Json} (h : ReadsAs text v) : arrays.Enters text v := by
  intro rest hrest s hs done outer
  rw [h rest hrest s hs, build.finish]
  rfl

/-- A key, a colon and a value are a member, with any blanks after the colon. -/
theorem ReadsAs.enters_member {text : List Char} {v : Json} (h : ReadsAs text v) (k : String) {gap : List Char}
    (hgap : gap.all isSpace = true) : objects.Enters (stringText k ++ ':' :: (gap ++ text)) (some k, v) := by
  intro rest hrest s hs done outer
  -- A key is read in the same way at the beginning of an object and after a comma.
  have hkey : ∀ xs, build s (.object done :: outer) (.string (some k) :: xs) =
      build .colon (.member done (some k) :: outer) xs := by
    intro xs
    rcases hs with rfl | rfl
    · show build .key _ _ = _
      rw [build]
    · show build .keyOrEnd _ _ = _
      rw [build]
  show build s (.object done :: outer) _ = _
  rw [List.append_assoc, lexemes_stringText, hkey, List.cons_append, lexemes_mark rfl rfl, build, List.append_assoc,
    lexemes_spaces hgap, h rest hrest _ (.inl rfl), build.finish]
  rfl

/-! ## Entries one by one -/

theorem compactItems_eq_map (items : List Json) : compactItems items = items.map compact := by
  induction items with
  | nil => rfl
  | cons v items ih => rw [compactItems, ih, List.map_cons]

theorem compactMembers_eq_map (members : List (Option String × Json)) :
    compactMembers members = members.map fun m => keyText m.1 ++ ':' :: compact m.2 := by
  induction members with
  | nil => rfl
  | cons m members ih => rw [compactMembers, ih, List.map_cons]

theorem prettyItems_eq_map (depth : Nat) (items : List Json) :
    prettyItems depth items = items.map (prettyAt depth) := by
  induction items with
  | nil => rfl
  | cons v items ih => rw [prettyItems, ih, List.map_cons]

theorem prettyMembers_eq_map (depth : Nat) (members : List (Option String × Json)) :
    prettyMembers depth members = members.map fun m => keyText m.1 ++ ':' :: ' ' :: prettyAt depth m.2 := by
  induction members with
  | nil => rfl
  | cons m members ih => rw [prettyMembers, ih, List.map_cons]

/-- Entries written one by one are read one by one. -/
theorem Container.forall₂_enters {α : Type} (c : Container α) {write : α → List Char} {entries : List α}
    (h : ∀ a ∈ entries, c.Enters (write a) a) : List.Forall₂ c.Enters (entries.map write) entries :=
  List.forall₂_map_left_iff.2 (List.forall₂_same.2 h)

/-! ## Proper documents -/

/-- A document without a place that is no JSON, and with proper numbers. -/
inductive Proper : Json → Prop where
  | null : Proper .null
  | bool (b : Bool) : Proper (.bool b)
  | number {n : Literal} (h : n.Proper) : Proper (.number n)
  | string (s : String) : Proper (.string s)
  | array {items : List Json} (h : ∀ v ∈ items, Proper v) : Proper (.array items)
  | object {members : List (Option String × Json)} (hkeys : ∀ m ∈ members, m.1.isSome = true)
      (h : ∀ m ∈ members, Proper m.2) : Proper (.object members)

theorem proper_ofWord (w : UInt32) : (ofWord w).Proper := .number (Literal.proper_ofNat _)

theorem proper_ofInt (n : Int) : (ofInt n).Proper := .number (Literal.proper_ofInt n)

theorem proper_ofBinary64 (x : Binary64) : (ofBinary64 x).Proper := by
  rw [ofBinary64]
  cases h : Literal.ofBinary64? x with
  | none => exact .null
  | some n => exact .number (Literal.proper_ofBinary64 h)

theorem proper_ofMembers {members : List (String × Json)} (h : ∀ m ∈ members, m.2.Proper) :
    (ofMembers members).Proper := by
  refine .object (fun m hm => ?_) fun m hm => ?_
  · obtain ⟨m, -, rfl⟩ := List.mem_map.1 hm
    rfl
  · obtain ⟨m', hm', rfl⟩ := List.mem_map.1 hm
    exact h m' hm'

theorem Proper.readsAs_compact {v : Json} (h : v.Proper) : ReadsAs v.compact v := by
  induction h with
  | null => exact readsAs_null
  | bool b => exact readsAs_bool b
  | number h => exact readsAs_number h
  | string s => exact readsAs_string s
  | @array items _ ih =>
    rw [compact, compactItems_eq_map]
    exact arrays.readsAs List.all_nil List.all_nil List.all_nil (arrays.forall₂_enters fun v hv => (ih v hv).enters)
  | @object members hkeys _ ih =>
    rw [compact, compactMembers_eq_map]
    refine objects.readsAs List.all_nil List.all_nil List.all_nil (objects.forall₂_enters fun m hm => ?_)
    obtain ⟨_ | k, v⟩ := m
    · cases hkeys _ hm
    · exact (ih _ hm).enters_member k List.all_nil

theorem Proper.readsAs_pretty {v : Json} (h : v.Proper) (depth : Nat) : ReadsAs (v.prettyAt depth) v := by
  induction h generalizing depth with
  | null => exact readsAs_null
  | bool b => exact readsAs_bool b
  | number h => exact readsAs_number h
  | string s => exact readsAs_string s
  | @array items _ ih =>
    rw [prettyAt, prettyItems_eq_map]
    exact arrays.readsAs_bracketed depth (arrays.forall₂_enters fun v hv => (ih v hv (depth + 1)).enters)
  | @object members hkeys _ ih =>
    rw [prettyAt, prettyMembers_eq_map]
    refine objects.readsAs_bracketed depth (objects.forall₂_enters fun m hm => ?_)
    obtain ⟨_ | k, v⟩ := m
    · cases hkeys _ hm
    · exact (ih _ hm (depth + 1)).enters_member k (show [' '].all isSpace = true from rfl)

theorem ReadsAs.read {text : List Char} {v : Json} (h : ReadsAs text v) : Json.read text = ⟨v, false⟩ := by
  have hread := h [] ended_nil .value (.inl rfl) []
  rw [List.append_nil] at hread
  rw [Json.read, hread, build.finish, lexemes]
  rfl

/-- **The compact text of a proper document is read as the document.** -/
theorem read_compact {v : Json} (h : v.Proper) : Json.read v.compact = ⟨v, false⟩ := h.readsAs_compact.read

/-- **The text on lines of a proper document is read as the document.** -/
theorem read_pretty {v : Json} (h : v.Proper) : Json.read v.pretty = ⟨v, false⟩ := (h.readsAs_pretty 0).read

end ThermalLabel.Json

import ThermalLabel.Document.Element
import ThermalLabel.Proofs.Document.Reader

/-!
# Elements read back from their documents

Every attribute has a document of its own form: words, letters, names, angles and truth values. Each is read back as it
was written, so the members of an element fill the record of elements; the members of a kind are kept while its name is
looked for, and are then read as the attributes of that kind. So **an element is read back from its document**, with or
without blanks in the text (`readText_element`), inside any containers (`element_document`).
-/

namespace ThermalLabel

namespace Document

/-! ## Attributes -/

theorem fontSize_ofWord (d : PositiveDots) : fontSize (.ofWord d.dots) = .ok d := by
  have hdots : PositiveDots.ofWord .zeroFontSize d.dots = .ok d := by
    rw [PositiveDots.ofWord, PositiveDots.ofWord?_dots]
  rw [fontSize, bind_ok (word_ofWord d.dots), valid_ok hdots]

theorem moduleSize_ofWord (m : ModuleSize) : moduleSize (.ofWord m.dots) = .ok m := by
  rw [moduleSize, bind_ok (word_ofWord m.dots), valid_ok m.ofWord_dots]

theorem errorCorrection_letter (l : ErrorCorrection) : errorCorrection (.ofChars [l.letter]) = .ok l := by
  have htext : text (.ofChars [l.letter]) = .ok (String.ofList [l.letter]) := rfl
  rw [errorCorrection, bind_ok htext, valid_ok l.ofText_letter]

theorem rotation_degrees (r : Rotation) : rotation (.ofWord r.degrees) = .ok r := by
  have hdegrees : Rotation.ofDegrees r.degrees = .ok r := by cases r <;> rfl
  rw [rotation, bind_ok (word_ofWord r.degrees), valid_ok hdegrees]

theorem alignment_name (a : Alignment) : bufferedVariant Alignment.all Alignment.name (.string a.name) = .ok a := by
  cases a <;> rfl

theorem symbology_name (s : Symbology) : bufferedVariant Symbology.all Symbology.name (.string s.name) = .ok s := by
  cases s <;> rfl

/-! ## Records -/

theorem read_point (p : Point) : pointRecord.read .direct p.document = .ok p :=
  Record.read_ofMembers _ (by decide) <|
    .field (word_ofWord p.x) <|
    .field (word_ofWord p.y) <|
    .nil _

theorem read_extent (e : Extent) : extentRecord.read .direct e.document = .ok e :=
  Record.read_ofMembers _ (by decide) <|
    .field (word_ofWord e.width) <|
    .field (word_ofWord e.height) <|
    .nil _

theorem read_textStyle (s : TextStyle) : textRecord.read .buffered (.ofMembers s.members) = .ok s :=
  Record.read_ofMembers _ (by decide) <|
    .field rfl <|
    .field (fontSize_ofWord s.size) <|
    .field rfl <|
    .field (alignment_name s.alignment) <|
    .nil _

theorem read_barcodeStyle (s : BarcodeStyle) : barcodeRecord.read .buffered (.ofMembers s.members) = .ok s :=
  Record.read_ofMembers _ (by decide) <|
    .field (symbology_name s.symbology) <|
    .field (positive_ofWord s.moduleHeight) <|
    .field (positive_ofWord s.moduleWidth) <|
    .field rfl <|
    .nil _

theorem read_qrStyle (s : QrStyle) : qrRecord.read .buffered (.ofMembers s.members) = .ok s :=
  Record.read_ofMembers _ (by decide) <|
    .field (moduleSize_ofWord s.moduleSize) <|
    .field (errorCorrection_letter s.errorCorrection) <|
    .nil _

theorem read_stroke (s : Stroke) : strokeRecord.read .buffered (.ofMembers s.members) = .ok s :=
  Record.read_ofMembers _ (by decide) <|
    .field (positive_ofWord s.thickness) <|
    .nil _

/-! ## Kinds -/

/-- A document that is no container: it can be kept everywhere, and it has a text. -/
structure Simple (v : Json) : Prop where
  storable : ∀ room, isStorable room v = true
  proper : v.Proper

theorem simple_string (s : String) : Simple (.string s) := ⟨fun _ => rfl, .string s⟩

theorem simple_bool (b : Bool) : Simple (.bool b) := ⟨fun _ => rfl, .bool b⟩

theorem simple_ofWord (w : UInt32) : Simple (.ofWord w) := by
  have hw : w.toNat < Nat.pow 2 64 := Nat.lt_of_lt_of_le w.toNat_lt (by decide)
  refine ⟨fun room => ?_, Json.proper_ofWord w⟩
  rw [Json.ofWord, Json.ofNat, isStorable, Literal.numeric?_ofNat hw]
  rfl

/-- The members of a kind are simple, and none of them is taken for its name. -/
theorem members_simple (k : ElementKind) : ∀ m ∈ k.members, m.1 ≠ tagKey ∧ Simple m.2 := by
  have hstyle : ∀ s : TextStyle, ∀ m ∈ s.members, m.1 ≠ tagKey ∧ Simple m.2 := by
    intro s
    simp [TextStyle.members, tagKey, simple_string, simple_bool, simple_ofWord]
  have hstroke : ∀ s : Stroke, ∀ m ∈ s.members, m.1 ≠ tagKey ∧ Simple m.2 := by
    intro s
    simp [Stroke.members, tagKey, simple_ofWord]
  cases k with
  | text s | price s => exact hstyle s
  | barcode s =>
    simp [ElementKind.members, BarcodeStyle.members, tagKey, simple_string, simple_bool, simple_ofWord]
  | qrCode s => simp [ElementKind.members, QrStyle.members, Json.ofChars, tagKey, simple_string, simple_ofWord]
  | image => nofun
  | box s | line s => exact hstroke s

/-- Members that follow the name of the kind are kept as they are. -/
theorem splitTag_members (room : Nat) (t : KindTag) {ms : List (String × Json)}
    (h : ∀ m ∈ ms, m.1 ≠ tagKey ∧ Simple m.2) :
    splitTag room (some t) (ms.map fun (k, v) => (some k, v)) = .ok (t, ms.map fun (k, v) => (some k, v)) := by
  induction ms with
  | nil => rfl
  | cons m ms ih =>
    obtain ⟨⟨hkey, hsimple⟩, hms⟩ := List.forall_mem_cons.1 h
    rw [List.map_cons, splitTag, if_neg hkey, if_pos (hsimple.storable room), ih hms]
    rfl

/-- The name of a kind tells its kind, and its members are the attributes of that kind. -/
theorem exists_tag (k : ElementKind) :
    ∃ t, kindTag (.string k.name) = .ok t ∧ kindOf t (.ofMembers k.members) = .ok k := by
  cases k with
  | text s => exact ⟨.text, rfl, map_ok (read_textStyle s) _⟩
  | price s => exact ⟨.price, rfl, map_ok (read_textStyle s) _⟩
  | barcode s => exact ⟨.barcode, rfl, map_ok (read_barcodeStyle s) _⟩
  | qrCode s => exact ⟨.qrCode, rfl, map_ok (read_qrStyle s) _⟩
  | image => exact ⟨.image, rfl, rfl⟩
  | box s => exact ⟨.box, rfl, map_ok (read_stroke s) _⟩
  | line s => exact ⟨.line, rfl, map_ok (read_stroke s) _⟩

theorem kind_document (depth : Nat) (k : ElementKind) : kind depth k.document = .ok k := by
  obtain ⟨t, htag, hkind⟩ := exists_tag k
  have hsplit : splitTag (maxDepth - (depth + 1)) none
      ((some tagKey, .string k.name) :: k.members.map fun (k, v) => (some k, v)) =
        .ok (t, k.members.map fun (k, v) => (some k, v)) := by
    rw [splitTag, if_pos rfl, if_neg (by decide), htag]
    exact splitTag_members _ t (members_simple k)
  rw [ElementKind.document, Json.ofMembers, List.map_cons, kind]
  dsimp only
  rw [hsplit]
  exact hkind

/-! ## Elements -/

theorem distinct_elementRecord (depth : Nat) : ((elementRecord depth).fields.map Field.name).Nodup := by
  show ((elementRecord 0).fields.map Field.name).Nodup
  decide

/-- **An element is read back from its document**, inside any number of containers. -/
theorem element_document (depth : Nat) (e : Element) : element depth e.document = .ok e :=
  Record.read_ofMembers _ (distinct_elementRecord depth) <|
    .field (word_ofWord e.id) <|
    .field (read_point e.position) <|
    .field (read_extent e.size) <|
    .field (rotation_degrees e.rotation) <|
    .field (stacking_ofInt e.zOrder) <|
    .field rfl <|
    .field (kind_document (depth + 1) e.kind) <|
    .nil _

end Document

theorem ElementKind.proper_document (k : ElementKind) : k.document.Proper :=
  Json.proper_ofMembers (List.forall_mem_cons.2 ⟨.string _, fun m hm => (Document.members_simple k m hm).2.proper⟩)

theorem Point.proper_document (p : Point) : p.document.Proper :=
  Json.proper_ofMembers (by simp [Json.proper_ofWord])

theorem Extent.proper_document (e : Extent) : e.document.Proper :=
  Json.proper_ofMembers (by simp [Json.proper_ofWord])

theorem Element.proper_document (e : Element) : e.document.Proper :=
  Json.proper_ofMembers (by
    simp [Json.proper_ofWord, Json.proper_ofInt, Json.Proper.string, Point.proper_document, Extent.proper_document,
      ElementKind.proper_document])

/-- **The text of an element is read as the element**, whether it is written without blanks or on lines. -/
theorem readText_element (e : Element) :
    Document.readText (Document.element 0) (String.ofList e.document.compact) = .ok e ∧
      Document.readText (Document.element 0) (String.ofList e.document.pretty) = .ok e := by
  rw [Document.readText_compact _ e.proper_document, Document.readText_pretty _ e.proper_document]
  exact ⟨Document.element_document 0 e, Document.element_document 0 e⟩

end ThermalLabel

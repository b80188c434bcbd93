import ThermalLabel.Proofs.Conversion.Kept
import ThermalLabel.Proofs.Element
import ThermalLabel.Proofs.HexEscape
import ThermalLabel.Proofs.Text.Utf8
import ThermalLabel.Proofs.Zpl.Obey

/-!
# Positions, data and text

Field data is read back whether or not it was written with escapes (`obeys_data`). The font command sets the font it was
written for (`obey_font`), and text is aligned iff it needs to be and has a width (`obeys_block`).
-/

namespace ThermalLabel.Zpl

variable {f : Format} {a : Arguments} {i : Nat}

/-! ## Arguments -/

theorem rotationArg?_of_token {r : Rotation} (h : a.values[0]? = some (r.token .zpl).toList) :
    rotationArg? a = .ok (some r) := by
  rw [rotationArg?, Arguments.get?_of_tidy h (r.tidy_token .zpl)]
  simp only [rotationArg, String.ofList_toList, Rotation.ofToken?_token]
  rfl

theorem positiveArgOr_of_digits {d : PositiveDots} (field : String) (default : PositiveDots)
    (h : a.values[i]? = some (wordDigits d.dots)) : positiveArgOr a i field default = .ok d := by
  rw [positiveArgOr, Arguments.word?_of_digits field h]
  simp only [bind, Except.bind, Option.bind_some, PositiveDots.ofWord?_dots]
  rfl

/-! ## Position and page -/

theorem obey_origin (p : Point) : f.obey (originCommand p) = { step := .position p, format := f } := by
  have hvalues : (argumentsOf (originCommand p) (originCommand p).body).values = [wordDigits p.x, wordDigits p.y] :=
    values_body _ (by simp) (by simp [isField_digits])
  have hx : (argumentsOf (originCommand p) (originCommand p).body).wordOr 0 "x" 0 = .ok p.x :=
    Arguments.wordOr_of_digits _ _ (by rw [hvalues]; rfl)
  have hy : (argumentsOf (originCommand p) (originCommand p).body).wordOr 1 "y" 0 = .ok p.y :=
    Arguments.wordOr_of_digits _ _ (by rw [hvalues]; rfl)
  refine obey_of_perform (v := .origin) rfl ?_
  simp only [Format.perform, hx, hy]
  rfl

theorem obey_separator : f.obey separatorCommand = { step := .setup, format := { f with field := {} } } := rfl

theorem obey_pageWidth (w : UInt32) :
    f.obey (.caret "PW" (wordDigits w)) = { step := .page (some w) none, format := f } := by
  have hw : (argumentsOf (.caret "PW" (wordDigits w)) (wordDigits w)).word 0 "width" = .ok w :=
    Arguments.word_of_digits _ (by rw [values_digits]; rfl)
  refine obey_of_perform (v := .pageWidth) rfl ?_
  simp only [Format.perform, Command.caret] at hw ⊢
  rw [hw]
  rfl

theorem obey_pageLength (w : UInt32) :
    f.obey (.caret "LL" (wordDigits w)) = { step := .page none (some w), format := f } := by
  have hw : (argumentsOf (.caret "LL" (wordDigits w)) (wordDigits w)).word 0 "length" = .ok w :=
    Arguments.word_of_digits _ (by rw [values_digits]; rfl)
  refine obey_of_perform (v := .pageLength) rfl ?_
  simp only [Format.perform, Command.caret] at hw ⊢
  rw [hw]
  rfl

/-! ## Data -/

/-- Escapes are read as the content they were written for. -/
theorem decode_encode (field : Field) (content : List Char) :
    ({ field with indicator := some HexEscape.defaultIndicator } : Field).decode
      (HexEscape.encode HexEscape.defaultIndicator content) = (content, []) := by
  have hascii : HexEscape.defaultIndicator.toNat < 0x80 := by decide
  have hdecode := HexEscape.decode_encode hascii content
  simp only [Field.decode, hdecode, Text.decodeLossy_encode]

theorem obey_hexIndicator : f.obey (.caret "FH" [HexEscape.byteChar HexEscape.defaultIndicator]) =
    { step := .setup, format :=
      { f with field := { f.field with indicator := some HexEscape.defaultIndicator } } } := rfl

theorem obey_data {data content : List Char} (h : f.field.decode data = (content, [])) :
    f.obey (.caret "FD" data) = { step := .content (f.fieldContent content), format := f } := by
  refine obey_of_perform (v := .data) rfl ?_
  simp only [Format.perform, Command.caret, h]
  rfl

/-- **Field data is read back**, and the field ends. -/
theorem obeys_data (h : f.field.indicator = none) (content : List Char) :
    Obeys f (dataCommands content ++ [separatorCommand]) [.content (f.fieldContent content)] ⟨{}, f.defaults⟩ := by
  rw [dataCommands]
  split
  · refine .setup obey_hexIndicator (.step (obey_data (decode_encode f.field content)) (by simp) ?_)
    exact .setup obey_separator .nil
  · have hplain : f.field.decode content = (content, []) := by rw [Field.decode, h]
    exact .step (obey_data hplain) (by simp) (.setup obey_separator .nil)

/-- A character that plain field data can hold is no boundary. -/
theorem isBoundary_of_safe {c : Char} (h : HexEscape.isUnsafe c = false) : isBoundary c = false := by
  have hne : ∀ d : Char, HexEscape.isUnsafe d = true → c ≠ d := by
    rintro d hd rfl
    rw [hd] at h
    cases h
  have h1 := hne '^' (by decide)
  have h2 := hne '~' (by decide)
  have h3 := hne '\n' (by decide)
  have h4 := hne '\r' (by decide)
  simp [isBoundary, isLeader, isLineBreak, h1, h2, h3, h4]

theorem writable_data (content : List Char) : ∀ c ∈ dataCommands content, c.Writable := by
  rw [dataCommands]
  split
  · refine List.forall_mem_cons.2 ⟨writable_caret (by decide) (by decide), List.forall_mem_singleton.2 ?_⟩
    refine writable_caret (by decide) fun x hx => ?_
    exact isBoundary_of_safe (HexEscape.isUnsafe_of_mem_encode (by decide) (by decide) hx)
  · rename_i hsafe
    refine List.forall_mem_singleton.2 (writable_caret (by decide) fun x hx => isBoundary_of_safe ?_)
    rw [HexEscape.needed, Bool.not_eq_true, List.any_eq_false] at hsafe
    simpa using hsafe x hx

/-! ## Text -/

theorem isHeadChar_toUpper {c : Char} (h : c.isAlphanum = true) : isHeadChar c.toUpper = true := by
  have hascii : ∀ n < 0x80, (Char.ofNat n).isAlphanum = true → isHeadChar (Char.ofNat n).toUpper = true := by decide
  have hc : c.toNat < 0x80 := by
    unfold Char.isAlphanum Char.isAlpha Char.isUpper Char.isLower Char.isDigit at h
    simp only [Bool.or_eq_true, Bool.and_eq_true, decide_eq_true_eq, ge_iff_le, UInt32.le_iff_toNat_le,
      Char.toNat_val] at h
    have hz : 'z'.toNat = 122 := rfl
    have hZ : 'Z'.toNat = 90 := rfl
    have h9 : '9'.toNat = 57 := rfl
    omega
  rw [← Char.ofNat_toNat c] at h ⊢
  exact hascii _ hc h

/-- The name of a font in a program is a capital letter or a digit. -/
theorem isHeadChar_fontName (font : String) : isHeadChar (fontName font) = true := by
  rw [fontName]
  split
  · split
    · rename_i hc
      exact isHeadChar_toUpper hc
    · rfl
  · rfl

theorem characterWidth_ne_zero (style : TextStyle) : characterWidth style ≠ 0 := by
  have hsize : style.size.dots.toNat ≠ 0 := fun h => style.size.ne_zero (UInt32.toNat_inj.1 h)
  rw [characterWidth]
  split
  · intro h
    have hz := congrArg UInt32.toNat h
    have hle := toNat_le_wordMax style.size.dots
    rw [toNat_addWord, UInt32.toNat_zero] at hz
    omega
  · exact style.size.ne_zero

/-- The font that a font command sets. -/
def fieldFont (style : TextStyle) (r : Rotation) : FieldFont :=
  ⟨fontName style.font, some r, style.size, characterWidth style⟩

theorem obey_font (style : TextStyle) (r : Rotation) : f.obey (fontCommand style r) =
    { step := .setup, format := { f with field := { f.field with font := some (fieldFont style r) } } } := by
  have hvalues : (argumentsOf (fontCommand style r) (body [(r.token .zpl).toList, wordDigits style.size.dots,
      wordDigits (characterWidth style)])).values =
        [(r.token .zpl).toList, wordDigits style.size.dots, wordDigits (characterWidth style)] :=
    values_body _ (by simp) (by simp [isField_digits, isField_rotation])
  have hfont : f.font (fontCommand style r) = .ok (fieldFont style r) := by
    have hrotation := rotationArg?_of_token (r := r) (by rw [hvalues]; rfl)
    have hheight := positiveArgOr_of_digits (i := 1) (d := style.size) "height" f.defaults.fontHeight
      (by rw [hvalues]; rfl)
    have hwidth := positiveArgOr_of_digits (i := 2) (d := ⟨_, characterWidth_ne_zero style⟩) "width" style.size
      (by rw [hvalues]; rfl)
    simp only [Format.font, fontCommand, Command.caret] at hrotation hheight hwidth ⊢
    rw [hrotation, hheight]
    simp only [bind, Except.bind, hwidth, toUpper_of_isHeadChar (isHeadChar_fontName _)]
    rfl
  refine obey_of_perform (v := .font) rfl ?_
  simp only [Format.perform, hfont]
  rfl

/-- The width and alignment that are set for text, if they are. -/
def fieldBlock? (style : TextStyle) (width : UInt32) : Option (UInt32 × Alignment) :=
  if style.alignment = .left ∨ width = 0 then none else some (width, style.alignment)

theorem alignmentArg_of_letter {j : Char} {alignment : Alignment} (hj : justification? alignment = some j)
    (h : a.values[3]? = some [j]) : alignmentArg a = .ok alignment := by
  cases alignment with
  | left => cases hj
  | center =>
    obtain rfl : 'C' = j := Option.some.inj hj
    rw [alignmentArg, Arguments.get?_of_tidy h (by decide)]
    rfl
  | right =>
    obtain rfl : 'R' = j := Option.some.inj hj
    rw [alignmentArg, Arguments.get?_of_tidy h (by decide)]
    rfl

theorem isField_justification {j : Char} {alignment : Alignment} (hj : justification? alignment = some j) :
    IsField [j] := by
  cases alignment with
  | left => cases hj
  | center =>
    obtain rfl : 'C' = j := Option.some.inj hj
    decide
  | right =>
    obtain rfl : 'R' = j := Option.some.inj hj
    decide

theorem obey_block {j : Char} {alignment : Alignment} (hj : justification? alignment = some j) (width : UInt32) :
    f.obey (.caret "FB" (body [wordDigits width, ['1'], ['0'], [j], ['0']])) =
      { step := .setup, format := { f with field := { f.field with block := some (width, alignment) } } } := by
  have hvalues : (argumentsOf (.caret "FB" (body [wordDigits width, ['1'], ['0'], [j], ['0']]))
      (body [wordDigits width, ['1'], ['0'], [j], ['0']])).values = [wordDigits width, ['1'], ['0'], [j], ['0']] := by
    refine values_body _ (by simp) ?_
    simp only [List.forall_mem_cons, List.not_mem_nil, false_implies, implies_true, and_true]
    exact ⟨isField_digits width, by decide, by decide, isField_justification hj, by decide⟩
  have hwidth := Arguments.wordOr_of_digits (i := 0) (w := width) "width" 0 (by rw [hvalues]; rfl)
  have halignment := alignmentArg_of_letter hj (by rw [hvalues]; rfl)
  refine obey_of_perform (v := .block) rfl ?_
  simp only [Format.perform, Command.caret] at hwidth halignment ⊢
  rw [hwidth]
  simp only [bind, Except.bind, halignment]
  rfl

/-- Aligning text sets its width and alignment, if it needs to. -/
theorem obeys_block (h : f.field.block = none) (style : TextStyle) (width : UInt32) :
    Obeys f (blockCommands style width) []
      { f with field := { f.field with block := fieldBlock? style width } } := by
  rw [blockCommands, fieldBlock?]
  cases hj : justification? style.alignment with
  | none =>
    have hleft : style.alignment = .left := by
      cases ha : style.alignment with
      | left => rfl
      | center | right => rw [ha] at hj; cases hj
    simp only [hleft, true_or, if_true, ← h]
    exact .nil
  | some j =>
    have hne : style.alignment ≠ .left := fun ha => by rw [ha] at hj; cases hj
    by_cases hw : width = 0
    · simp only [hw, or_true, if_true, ← h]
      exact .nil
    · simp only [hne, hw, or_false, if_false]
      exact .setup (obey_block hj width) .nil

theorem writable_block (style : TextStyle) (width : UInt32) : ∀ c ∈ blockCommands style width, c.Writable := by
  rw [blockCommands]
  split
  · exact fun c hc => (List.not_mem_nil hc).elim
  · rename_i j hj
    split
    · exact fun c hc => (List.not_mem_nil hc).elim
    · refine List.forall_mem_singleton.2 (writable_caret (by decide) (inner_body ?_))
      simp only [List.forall_mem_cons, List.not_mem_nil, false_implies, implies_true, and_true]
      exact ⟨isField_digits width, by decide, by decide, isField_justification hj, by decide⟩

theorem writable_font (style : TextStyle) (r : Rotation) : (fontCommand style r).Writable := by
  have hname : Inner [fontName style.font] := by
    intro c hc
    rw [List.mem_singleton.1 hc]
    exact (isValueChar_of_isHeadChar (isHeadChar_fontName style.font)).2.2.2
  refine writable_caret (by decide) (hname.append (inner_body ?_))
  simp only [List.forall_mem_cons, List.not_mem_nil, false_implies, implies_true, and_true]
  exact ⟨isField_rotation r, isField_digits _, isField_digits _⟩

end ThermalLabel.Zpl

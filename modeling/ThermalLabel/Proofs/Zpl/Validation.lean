import ThermalLabel.Proofs.Element
import ThermalLabel.Proofs.InPlace
import ThermalLabel.Proofs.Zpl.Origin
import ThermalLabel.Zpl.WordFormat

/-!
# Validation never fails

The scanner in plain words keeps an invariant (`WordFormat.Sound`): the heights and the width that a style needs are
greater than zero, that of a pending font included. A state is sound exactly if it is that of a format in which they
cannot be zero (`WordFormat.sound_iff`), and from such a state each command does in words what it does in that format
(`obey_words`); one that fails has changed nothing. So every state of a run is sound (`WordFormat.Sound.after`), in a
sound state no style is refused (`WordFormat.Sound.content`, `WordFormat.Sound.barcodeStyle`), and the events are the
same (`events_words`). Hence **no validation fails in any program**, and field data is always drawn (`validates`).
-/

namespace ThermalLabel

/-! ## Styles -/

theorem PositiveDots.pos (d : PositiveDots) : 0 < d.dots := UInt32.pos_iff_ne_zero.2 d.ne_zero

theorem PositiveDots.ofWord_dots (reason : InvalidValue) (d : PositiveDots) : ofWord reason d.dots = .ok d := by
  rw [ofWord, ofWord?_dots]

theorem TextStyle.ofWord_dots (font : String) (d : PositiveDots) : ofWord font d.dots = .ok { font, size := d } := by
  rw [ofWord, PositiveDots.ofWord_dots]
  rfl

theorem BarcodeStyle.ofWord_dots (s : Symbology) (d : PositiveDots) :
    ofWord s d.dots = .ok { symbology := s, moduleHeight := d } := by
  rw [ofWord, PositiveDots.ofWord_dots]
  rfl

theorem BarcodeStyle.withModuleWidth_dots (style : BarcodeStyle) (d : PositiveDots) :
    style.withModuleWidth d.dots = .ok { style with moduleWidth := d } := by
  rw [withModuleWidth, PositiveDots.ofWord_dots]
  rfl

theorem QrStyle.ofWord_dots (size : ModuleSize) (level : ErrorCorrection) :
    ofWord size.dots level = .ok ⟨size, level⟩ := by
  rw [ofWord, ModuleSize.ofWord_dots]
  rfl

namespace Zpl

/-! ## States in words -/

/-- The defaults in words. -/
def Defaults.words (d : Defaults) : WordDefaults where
  font := d.font
  fontHeight := d.fontHeight.dots
  fontWidth := d.fontWidth
  rotation := d.rotation
  moduleWidth := d.moduleWidth.dots
  barHeight := d.barHeight.dots

/-- The font in words. -/
def FieldFont.words (font : FieldFont) : WordFont := ⟨font.font, font.rotation, font.height.dots, font.width⟩

/-- The attributes of a field in words. -/
def Field.words (field : Field) : WordField where
  font := field.font.map FieldFont.words
  block := field.block
  symbol := field.symbol
  indicator := field.indicator

/-- The state in words. -/
def Format.words (f : Format) : WordFormat := ⟨f.field.words, f.defaults.words⟩

/-- What no style is refused for: nothing that has to be positive is zero. -/
structure WordFormat.Sound (f : WordFormat) : Prop where
  fontHeight : 0 < f.defaults.fontHeight
  moduleWidth : 0 < f.defaults.moduleWidth
  barHeight : 0 < f.defaults.barHeight
  font : ∀ font ∈ f.field.font, 0 < font.height

/-- **A sound state** is that of a format. -/
theorem WordFormat.sound_iff {w : WordFormat} : w.Sound ↔ ∃ f : Format, f.words = w := by
  constructor
  · intro h
    have hne {n : UInt32} (hn : 0 < n) : n ≠ 0 := UInt32.pos_iff_ne_zero.1 hn
    let defaults : Defaults := {
      font := w.defaults.font
      fontHeight := ⟨w.defaults.fontHeight, hne h.fontHeight⟩
      fontWidth := w.defaults.fontWidth
      rotation := w.defaults.rotation
      moduleWidth := ⟨w.defaults.moduleWidth, hne h.moduleWidth⟩
      barHeight := ⟨w.defaults.barHeight, hne h.barHeight⟩ }
    obtain ⟨⟨font, block, symbol, indicator⟩, _⟩ := w
    cases font with
    | none => exact ⟨⟨⟨none, block, symbol, indicator⟩, defaults⟩, rfl⟩
    | some font =>
      let pending : FieldFont := ⟨font.font, font.rotation, ⟨font.height, hne (h.font font rfl)⟩, font.width⟩
      exact ⟨⟨⟨some pending, block, symbol, indicator⟩, defaults⟩, rfl⟩
  · rintro ⟨f, rfl⟩
    refine ⟨f.defaults.fontHeight.pos, f.defaults.moduleWidth.pos, f.defaults.barHeight.pos, ?_⟩
    intro font hfont
    obtain ⟨font, -, rfl⟩ := Option.map_eq_some_iff.1 hfont
    exact font.height.pos

/-! ## Validation -/

section Validation

variable (f : Format)

theorem font_words : f.words.font =
    (f.field.font.getD ⟨f.defaults.font, none, f.defaults.fontHeight, f.defaults.fontWidth⟩).words := by
  unfold WordFormat.font
  cases hfont : f.field.font with
  | none => simp only [Format.words, Field.words, hfont]; rfl
  | some font => simp only [Format.words, Field.words, hfont]; rfl

/-- **What field data draws** is made without a refusal. -/
theorem content_words (data : List Char) : f.words.content data = .ok (f.fieldContent data) := by
  have hsymbol : f.words.field.symbol = f.field.symbol := rfl
  unfold WordFormat.content Format.fieldContent
  rw [hsymbol]
  cases f.field.symbol with
  | none =>
    simp only [WordFormat.textStyle, font_words, FieldFont.words, TextStyle.ofWord_dots]
    rfl
  | some symbol =>
    cases symbol with
    | barcode style rotation => rfl
    | qrCode size level =>
      simp only [QrStyle.ofWord_dots]
      rfl

theorem barcodeStyle_words (s : Symbology) (height : PositiveDots) : f.words.barcodeStyle s height.dots =
    .ok { symbology := s, moduleHeight := height, moduleWidth := f.defaults.moduleWidth } := by
  rw [WordFormat.barcodeStyle, BarcodeStyle.ofWord_dots]
  exact BarcodeStyle.withModuleWidth_dots _ f.defaults.moduleWidth

end Validation

/-! ## Commands at work -/

/-- What a command in words leaves: its value and the state changed, or its failure and the state as it was. -/
def leaves {α : Type} (f : Format) : Except Cause (α × Format) → Except Cause α × WordFormat
  | .ok (a, g) => (.ok a, g.words)
  | .error cause => (.error cause, f.words)

theorem ok_bind {α β : Type} (x : α) (k : α → Except Cause β) : (Except.ok x >>= k) = k x := rfl

/-! ## Zeros -/

section Zeros

variable (a : Arguments)

/-- A word that might be zero is zero, or it is absent or a positive number of dots. -/
theorem zero_or_dots (w? : Option UInt32) :
    w? = some 0 ∨ ∃ d? : Option PositiveDots, w? = d?.map PositiveDots.dots := by
  cases w? with
  | none => exact .inr ⟨none, rfl⟩
  | some w =>
    by_cases hw : w = 0
    · exact .inl (congrArg some hw)
    · exact .inr ⟨some ⟨w, hw⟩, rfl⟩

theorem bind_dots (d? : Option PositiveDots) : (d?.map PositiveDots.dots).bind PositiveDots.ofWord? = d? := by
  cases d? with
  | none => rfl
  | some d => exact d.ofWord?_dots

/-- Only a zero is refused. -/
theorem refuseZero_dots (field : String) (d? : Option PositiveDots) :
    refuseZero a field (d?.map PositiveDots.dots) = .ok () := by
  refine if_neg fun h => ?_
  obtain ⟨d, -, hd⟩ := Option.map_eq_some_iff.1 h
  exact d.ne_zero hd

theorem positive?_dots (d? : Option PositiveDots) :
    positive? (d?.map PositiveDots.dots) = d?.map PositiveDots.dots := by
  cases d? with
  | none => rfl
  | some d => exact Option.filter_some_pos (decide_eq_true d.pos)

theorem positive?_eq (w? : Option UInt32) : positive? w? = (w?.bind PositiveDots.ofWord?).map PositiveDots.dots := by
  rcases zero_or_dots w? with rfl | ⟨d?, rfl⟩
  · rfl
  · rw [positive?_dots, bind_dots]

/-- A zero falls back to the default, as an absent argument does. -/
theorem positiveWordOr_dots (index : Nat) (field : String) (default : PositiveDots) :
    positiveWordOr a index field default.dots = (positiveArgOr a index field default).map PositiveDots.dots := by
  unfold positiveWordOr positiveArgOr
  cases a.word? index field with
  | error cause => rfl
  | ok w? =>
    show (Except.ok ((positive? w?).getD default.dots) : Except Cause UInt32) = _
    rw [positive?_eq, Option.getD_map]
    rfl

theorem positiveArg?_eq (index : Nat) (field : String) : positiveArg? a index field = do
    let w? ← a.word? index field
    refuseZero a field w?
    return w?.bind PositiveDots.ofWord? := by
  unfold positiveArg?
  cases a.word? index field with
  | error cause => rfl
  | ok w? =>
    rcases zero_or_dots w? with rfl | ⟨d?, rfl⟩
    · rfl
    · simp only [ok_bind, refuseZero_dots, bind_dots]
      cases d? with
      | none => rfl
      | some d => simp only [Option.map_some, PositiveDots.ofWord?_dots]

end Zeros

/-! ## Commands -/

section Commands

variable (f : Format) (a : Arguments)

/-- Setting the default font sets it as a whole, or nothing. -/
theorem run_setDefaultFont : (setDefaultFont a).run.run f.words =
    leaves f ((f.defaults.withFont a).map fun d => ((), { f with defaults := d })) := by
  unfold setDefaultFont Defaults.withFont
  rw [run_read, positiveArg?_eq]
  cases a.word? 1 "height" with
  | error cause => rfl
  | ok height =>
    rcases zero_or_dots height with rfl | ⟨d?, rfl⟩
    · rfl
    · simp only [ok_bind, run_read, refuseZero_dots, bind_dots]
      cases a.word? 2 "width" with
      | error cause => rfl
      | ok width => cases d? <;> cases width <;> cases (a.get? 0).bind List.head? <;> rfl

/-- So does setting the bar defaults. -/
theorem run_setDefaultBars : (setDefaultBars a).run.run f.words =
    leaves f ((f.defaults.withBars a).map fun d => ((), { f with defaults := d })) := by
  unfold setDefaultBars Defaults.withBars
  rw [run_read]
  cases a.word? 0 "module_width" with
  | error cause => rfl
  | ok width =>
    dsimp only
    rw [run_read]
    cases a.word? 2 "height" with
    | error cause => rfl
    | ok height =>
      simp only [ok_bind, run_read, positive?_eq]
      rcases zero_or_dots width with rfl | ⟨d?, rfl⟩
      · rfl
      · rw [refuseZero_dots]
        cases d? with
        | none => cases height.bind PositiveDots.ofWord? <;> rfl
        | some d =>
          simp only [Option.map_some, PositiveDots.ofWord?_dots]
          cases height.bind PositiveDots.ofWord? <;> rfl

/-- A font command sets the font of the field, with a height that is the default one if it has none. -/
theorem run_setFont (c : Command) : (setFont c).run.run f.words =
    leaves f ((f.font c).map fun font => ((), { f with field := { f.field with font := some font } })) := by
  unfold setFont Format.font
  cases c.body with
  | nil => rfl
  | cons name rest =>
    have hdefault : f.words.defaults.fontHeight = f.defaults.fontHeight.dots := rfl
    simp only [run_read, run_get, hdefault, positiveWordOr_dots]
    cases rotationArg? (argumentsOf c rest) with
    | error cause => rfl
    | ok rotation =>
      cases positiveArgOr (argumentsOf c rest) 1 "height" f.defaults.fontHeight with
      | error cause => rfl
      | ok height =>
        simp only [ok_bind, Except.map, positiveWordOr_dots]
        cases positiveArgOr (argumentsOf c rest) 2 "width" height <;> rfl

theorem barHeightArg_dots (s : Symbology) : f.words.barHeightArg s a =
    (positiveArgOr a (if s = .code39 then 2 else 1) "height" f.defaults.barHeight).map PositiveDots.dots :=
  positiveWordOr_dots a _ _ f.defaults.barHeight

/-- A barcode command sets the barcode of the field. Its style is validated only here, and never refused. -/
theorem run_setBarcode (s : Symbology) : (setBarcode s a).run.run f.words =
    leaves f ((f.barcode s a).map fun symbol => ((), { f with field := { f.field with symbol := some symbol } })) := by
  unfold setBarcode Format.barcode
  have hindex : (if s = .code39 then 3 else 2) = (if s = .code39 then 2 else 1) + 1 := by split <;> rfl
  simp only [run_read, run_get, barHeightArg_dots, hindex]
  cases rotationArg? a with
  | error cause => rfl
  | ok rotation =>
    cases positiveArgOr a (if s = .code39 then 2 else 1) "height" f.defaults.barHeight with
    | error cause => rfl
    | ok height =>
      simp only [ok_bind, Except.map, barcodeStyle_words]
      cases showTextArg a ((if s = .code39 then 2 else 1) + 1) <;> rfl

/-- Field data is drawn. -/
theorem run_drawData (c : Command) : (drawData c).run.run f.words =
    (.ok ⟨(f.field.decode c.body).2.map (.undecodable (argumentsOf c c.body).name),
      .content (f.fieldContent (f.field.decode c.body).1)⟩, f.words) := by
  have hdecode : ({ indicator := f.words.field.indicator } : Field).decode c.body = f.field.decode c.body := rfl
  unfold drawData
  simp only [run_get, hdecode, content_words]
  rfl

/-- The report in an outcome, and the state after it. -/
def Outcome.report (o : Outcome) : Report × Format := (⟨o.notes, o.step⟩, o.format)

/-- A command that only changes the state leaves the one that its change leaves. -/
theorem run_setup {α : Type} {change : Work Unit} {x : Except Cause α} {next : α → Format}
    (h : change.run.run f.words = leaves f (x.map fun a => ((), next a))) :
    (setup change).run.run f.words =
      leaves f (Except.map Outcome.report (x >>= fun a => return { step := .setup, format := next a })) := by
  rw [setup, run_bind, h]
  cases x <;> rfl

/-- **What a command does in words** is what it does. -/
theorem run_work (c : Command) (v : Verb) :
    (work c v).run.run f.words = leaves f ((f.perform c v).map Outcome.report) := by
  unfold work Format.perform
  cases v with
  | origin =>
    dsimp only
    cases (argumentsOf c c.body).wordOr 0 "x" 0 with
    | error cause => rfl
    | ok x => cases (argumentsOf c c.body).wordOr 1 "y" 0 <;> rfl
  | separator | comment | setup => rfl
  | data => exact run_drawData f c
  | hexIndicator =>
    dsimp only
    cases indicatorArg (argumentsOf c c.body) <;> rfl
  | font => exact run_setup f (run_setFont f c)
  | defaultFont => exact run_setup f (run_setDefaultFont f _)
  | defaultRotation =>
    dsimp only
    cases rotationArg? (argumentsOf c c.body) with
    | error cause => rfl
    | ok r => cases r <;> rfl
  | block =>
    dsimp only
    cases (argumentsOf c c.body).wordOr 0 "width" 0 with
    | error cause => rfl
    | ok width => cases alignmentArg (argumentsOf c c.body) <;> rfl
  | barDefaults => exact run_setup f (run_setDefaultBars f _)
  | barcode s => exact run_setup f (run_setBarcode f _ s)
  | qrCode =>
    dsimp only
    cases moduleSizeArg (argumentsOf c c.body) with
    | error cause => rfl
    | ok size => cases levelArg? (argumentsOf c c.body) <;> rfl
  | graphic =>
    dsimp only
    cases graphicArg (argumentsOf c c.body) <;> rfl
  | pageWidth =>
    dsimp only
    cases (argumentsOf c c.body).word 0 "width" <;> rfl
  | pageLength =>
    dsimp only
    cases (argumentsOf c c.body).word 0 "length" <;> rfl

/-- **Any command** does in words what it does. -/
theorem obey_words (c : Command) : f.words.obey c = (⟨(f.obey c).notes, (f.obey c).step⟩, (f.obey c).format.words) := by
  unfold WordFormat.obey Format.obey
  cases Verb.of? c.leader c.head with
  | none => rfl
  | some v =>
    dsimp only
    rw [run_work]
    cases f.perform c v <;> rfl

end Commands

/-! ## Programs -/

/-- Is it one of the two commands with the data of a field? -/
def Command.isData (c : Command) : Bool := c.code = "^FD".toList || c.code = "^FV".toList

theorem Command.verb_of_isData {c : Command} (h : c.isData) : Verb.of? c.leader c.head = some .data := by
  rw [isData, Bool.or_eq_true, decide_eq_true_iff, decide_eq_true_iff] at h
  rcases h with h | h
  · rw [verb_of_code h]
    decide +kernel
  · rw [verb_of_code h]
    decide +kernel

theorem pass_words (f : Format) (s : Segment) : f.words.pass s = ((s.events f).1, (s.events f).2.words) := by
  cases s with
  | bare leader span => rfl
  | stray text span => rfl
  | command c span =>
    dsimp only [WordFormat.pass]
    rw [obey_words]
    rfl

/-- **The events** of segments are the same in words. -/
theorem events_words (f : Format) (ss : List Segment) : WordFormat.events f.words ss = events f ss := by
  induction ss generalizing f with
  | nil => rfl
  | cons s ss ih => rw [WordFormat.events, events, pass_words, ih]

namespace WordFormat

variable {w : WordFormat}

theorem sound_words (f : Format) : f.words.Sound := sound_iff.2 ⟨f, rfl⟩

/-- The state before a program is sound. -/
theorem sound_default : ({} : WordFormat).Sound := sound_words {}

namespace Sound

/-- A command leaves a sound state behind, even if it fails. -/
theorem obey (h : w.Sound) (c : Command) : (w.obey c).2.Sound := by
  obtain ⟨f, rfl⟩ := sound_iff.1 h
  rw [obey_words]
  exact sound_words _

theorem pass (h : w.Sound) (s : Segment) : (w.pass s).2.Sound := by
  cases s with
  | bare leader span => exact h
  | stray text span => exact h
  | command c span => exact h.obey c

/-- **A run** from a sound state passes through sound states. -/
theorem after (h : w.Sound) (ss : List Segment) : (w.after ss).Sound := by
  induction ss generalizing w with
  | nil => exact h
  | cons s ss ih => exact ih (h.pass s)

/-- In a sound state all data draws something. -/
theorem content (h : w.Sound) (data : List Char) : ∃ content, w.content data = .ok content := by
  obtain ⟨f, rfl⟩ := sound_iff.1 h
  exact ⟨_, content_words f data⟩

-- A state that is not sound would refuse it.
example : ({ defaults := { fontHeight := 0 } } : WordFormat).content ['7'] = .error .zeroFontSize := rfl

/-- In a sound state every barcode command that has its height has a style. -/
theorem barcodeStyle (h : w.Sound) {s : Symbology} {a : Arguments} {height : UInt32}
    (hheight : w.barHeightArg s a = .ok height) : ∃ style, w.barcodeStyle s height = .ok style := by
  obtain ⟨f, rfl⟩ := sound_iff.1 h
  rw [barHeightArg_dots] at hheight
  cases hread : positiveArgOr a (if s = .code39 then 2 else 1) "height" f.defaults.barHeight with
  | error cause =>
    rw [hread] at hheight
    cases hheight
  | ok d =>
    rw [hread] at hheight
    obtain rfl := Except.ok.inj hheight
    exact ⟨_, barcodeStyle_words f s d⟩

/-- In a sound state field data is drawn, whatever it is. -/
theorem data (h : w.Sound) {c : Command} (hc : c.isData) : ∃ content, (w.obey c).1.step = .content content := by
  obtain ⟨f, rfl⟩ := sound_iff.1 h
  rw [obey_words, Format.obey, Command.verb_of_isData hc]
  exact ⟨_, rfl⟩

end Sound

end WordFormat

/-- A state between two commands of a program. -/
def WordFormat.Reached (program : List Char) (w : WordFormat) : Prop :=
  ∃ before after, segments (tokens 0 program) = before ++ after ∧ WordFormat.after {} before = w

/-- What is validated while a program is read, and what comes of it. -/
structure Validates (program : List Char) : Prop where
  /-- The states in words are those of the scanner: they yield its events. -/
  events : WordFormat.events {} (segments (tokens 0 program)) = Language.zpl.events program
  /-- What has to be positive is, in every state. -/
  sound : ∀ w, WordFormat.Reached program w → w.Sound
  /-- Field data is not refused for its style. -/
  content : ∀ w, WordFormat.Reached program w → ∀ data, ∃ content, w.content data = .ok content
  /-- Nor is a barcode command, once it has its height. -/
  barcode : ∀ w, WordFormat.Reached program w → ∀ s a height, w.barHeightArg s a = .ok height →
    ∃ style, w.barcodeStyle s height = .ok style
  /-- A command of field data is a content step, after the notes about its data. -/
  data : ∀ w, WordFormat.Reached program w → ∀ c span, c.isData → ∃ (notes : List Cause) (content : Content),
    (w.pass (.command c span)).1 = notes.map (fun cause => .note ⟨cause, span⟩) ++ [.step (.content content) span]

/-- **No validation fails** in any program. -/
theorem validates (program : List Char) : Validates program := by
  have hsound : ∀ w, WordFormat.Reached program w → w.Sound := by
    rintro w ⟨before, after, -, rfl⟩
    exact WordFormat.sound_default.after before
  exact {
    events := events_words {} _
    sound := hsound
    content := fun w hw => (hsound w hw).content
    barcode := fun w hw s a height => (hsound w hw).barcodeStyle
    data := by
      intro w hw c span hc
      obtain ⟨content, hstep⟩ := (hsound w hw).data hc
      refine ⟨(w.obey c).1.notes, content, ?_⟩
      rw [← hstep]
      rfl }

end Zpl

end ThermalLabel

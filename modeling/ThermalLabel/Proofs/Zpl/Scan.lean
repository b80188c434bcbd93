import ThermalLabel.Proofs.Zpl.Cut
import ThermalLabel.Zpl.Recovery

/-!
# Scanning with checked cuts

Beside tokens and segments, the data of QR code fields is cut: a level and a mode in front of the content are found in
its bytes (`cutQrData`). This is checked too, so that `scan?` goes through a whole program and fails if any cut or span
does. **It never fails**, and reports what the scanner reports (`scan?_eq`).
-/

namespace ThermalLabel.Zpl

open HexEscape (byteChar)

/-! ## QR code data -/

/-- The level and content of QR code data, cut after its first and third bytes if these are a level and a mode. -/
def cutQrData (declared : Option ErrorCorrection) (data : List Char) : Option (ErrorCorrection × List Char) :=
  let plain := (declared.getD .medium, data)
  match Text.encode data with
  | b₀ :: b₁ :: b₂ :: _ =>
    if b₀.toNat < 0x80 ∧ (b₁ = 0x41 ∨ b₁ = 0x4D) ∧ b₂ = 0x2C then do
      let letter ← Text.slice? data ⟨0, 1⟩
      match ErrorCorrection.ofText (String.ofList letter) with
      | .ok level => return (level, ← Text.slice? data ⟨3, Text.byteLength data⟩)
      | .error _ => return plain
    else some plain
  | _ => some plain

/-- QR code data in whose bytes a level and a mode are found begins with them. -/
theorem exists_of_encode_qrData {data : List Char} {b₀ b₁ b₂ : UInt8} {bs : List UInt8}
    (h : Text.encode data = b₀ :: b₁ :: b₂ :: bs) (h₀ : b₀.toNat < 0x80) (h₁ : b₁ = 0x41 ∨ b₁ = 0x4D) (h₂ : b₂ = 0x2C) :
    ∃ c mode rest, data = c :: mode :: ',' :: rest ∧ c.toNat < 0x80 ∧ (mode = 'A' ∨ mode = 'M') := by
  have hmode : b₁.toNat < 0x80 := by rcases h₁ with rfl | rfl <;> decide
  obtain ⟨tail, rfl, htail⟩ := exists_of_encode_cons h h₀
  obtain ⟨tail', rfl, htail'⟩ := exists_of_encode_cons htail hmode
  obtain ⟨rest, rfl, -⟩ := exists_of_encode_cons htail' (by rw [h₂]; decide)
  refine ⟨byteChar b₀, byteChar b₁, rest, ?_, ?_, ?_⟩
  · rw [h₂]
    rfl
  · rw [HexEscape.toNat_byteChar]
    exact h₀
  · rcases h₁ with rfl | rfl
    · exact .inl rfl
    · exact .inr rfl

/-- The bytes of QR code data that begins with a level and a mode. -/
theorem encode_qrData {c mode : Char} (hc : c.toNat < 0x80) (hmode : mode = 'A' ∨ mode = 'M') (rest : List Char) :
    ∃ b₁, (b₁ = 0x41 ∨ b₁ = 0x4D) ∧
      Text.encode (c :: mode :: ',' :: rest) = UInt8.ofNat c.toNat :: b₁ :: 0x2C :: Text.encode rest := by
  rw [encode_cons_ascii hc]
  rcases hmode with rfl | rfl
  · refine ⟨0x41, .inl rfl, ?_⟩
    rw [encode_cons_ascii (by decide), encode_cons_ascii (by decide)]
    rfl
  · refine ⟨0x4D, .inr rfl, ?_⟩
    rw [encode_cons_ascii (by decide), encode_cons_ascii (by decide)]
    rfl

/-- Data that does not begin with a letter, a mode and a comma is taken as it is. -/
theorem splitQrData_plain {declared : Option ErrorCorrection} {data : List Char}
    (h : ∀ c mode rest, data = c :: mode :: ',' :: rest → ¬(c.toNat < 0x80 ∧ (mode = 'A' ∨ mode = 'M'))) :
    splitQrData declared data = (declared.getD .medium, data) := by
  unfold splitQrData
  split
  · rw [if_neg (h _ _ _ rfl)]
  · rfl

/-- **The cuts in QR code data** never fail. -/
theorem cutQrData_eq (declared : Option ErrorCorrection) (data : List Char) :
    cutQrData declared data = some (splitQrData declared data) := by
  unfold cutQrData
  split
  · rename_i b₀ b₁ b₂ bs hbytes
    by_cases hlead : b₀.toNat < 0x80 ∧ (b₁ = 0x41 ∨ b₁ = 0x4D) ∧ b₂ = 0x2C
    · obtain ⟨c, mode, rest, rfl, hc, hmode⟩ := exists_of_encode_qrData hbytes hlead.1 hlead.2.1 hlead.2.2
      have hsizes : c.utf8Size = 1 ∧ mode.utf8Size = 1 := by
        refine ⟨utf8Size_ascii hc, ?_⟩
        rcases hmode with rfl | rfl <;> rfl
      have hletter : Text.slice? (c :: mode :: ',' :: rest) ⟨0, 1⟩ = some [c] := by
        refine Text.slice?_eq_some_iff.2 ⟨[], mode :: ',' :: rest, rfl, ?_⟩
        rw [Text.byteLength_cons, hsizes.1]
        rfl
      have hcontent : Text.slice? (c :: mode :: ',' :: rest) ⟨3, Text.byteLength (c :: mode :: ',' :: rest)⟩ =
          some rest := by
        refine Text.slice?_eq_some_iff.2 ⟨[c, mode, ','], [], by simp, ?_⟩
        have hlead : Text.byteLength [c, mode, ','] = 3 := by
          simp only [Text.byteLength_cons, Text.byteLength_nil, hsizes]
          rfl
        rw [hlead, show c :: mode :: ',' :: rest = [c, mode, ','] ++ rest from rfl, Text.byteLength_append, hlead]
      rw [if_pos hlead]
      simp only [hletter, hcontent, splitQrData, if_pos (And.intro hc hmode), Option.bind_eq_bind, Option.bind_some]
      cases ErrorCorrection.ofText (String.ofList [c]) with
      | ok level => rfl
      | error e => rfl
    · rw [if_neg hlead, splitQrData_plain]
      rintro c mode rest rfl ⟨hc, hmode⟩
      obtain ⟨b, hb, hencode⟩ := encode_qrData hc hmode rest
      rw [hencode] at hbytes
      obtain ⟨rfl, htail⟩ := List.cons.inj hbytes
      obtain ⟨rfl, htail'⟩ := List.cons.inj htail
      refine hlead ⟨?_, hb, (List.cons.inj htail').1.symm⟩
      rw [Text.toNat_byte (by omega)]
      exact hc
  · rename_i hnone
    rw [splitQrData_plain]
    rintro c mode rest rfl ⟨hc, hmode⟩
    obtain ⟨b, -, hencode⟩ := encode_qrData hc hmode rest
    exact hnone _ _ _ _ hencode

/-! ## Events -/

/-- What a command does; field data that is a QR code is cut. -/
def Format.cutObey (f : Format) (c : Command) : Option Outcome :=
  match Verb.of? c.leader c.head, f.field.symbol with
  | some .data, some (.qrCode size level) => do
    let (data, malformed) := f.field.decode c.body
    let (level, content) ← cutQrData level data
    return {
      notes := malformed.map (.undecodable (String.ofList c.code))
      step := .content (.field (.qrCode ⟨size, level⟩) {} .deg0 (String.ofList content))
      format := f }
  | _, _ => some (f.obey c)

theorem cutObey_eq (f : Format) (c : Command) : f.cutObey c = some (f.obey c) := by
  unfold Format.cutObey
  split
  · rename_i size level hverb hsymbol
    simp only [Format.obey, hverb, Format.perform, Format.fieldContent, hsymbol, cutQrData_eq]
    rfl
  · rfl

/-- The events of segments in a state, with all that is cut in field data. -/
def cutEvents (f : Format) : List Segment → Option (List Event)
  | [] => some []
  | .command c span :: ss => do
    let o ← f.cutObey c
    return o.notes.map (fun cause => .note ⟨cause, span⟩) ++ [.step o.step span] ++ (← cutEvents o.format ss)
  | s :: ss => return (s.events f).1 ++ (← cutEvents f ss)

theorem cutEvents_eq : ∀ (f : Format) (ss : List Segment), cutEvents f ss = some (events f ss)
  | _, [] => rfl
  | f, .command c span :: ss => by
    rw [cutEvents, cutObey_eq]
    simp only [Option.bind_eq_bind, Option.bind_some]
    rw [cutEvents_eq _ ss]
    rfl
  | f, .bare leader span :: ss => by
    rw [cutEvents, cutEvents_eq f ss]
    · rfl
    · nofun
  | f, .stray text span :: ss => by
    rw [cutEvents, cutEvents_eq f ss]
    · rfl
    · nofun

/-- What the scanner reports, if no cut and no span fails. -/
def scan? (program : List Char) : Option (List Event) := do
  let ts ← cutTokens program 0 (Text.encode program)
  let ss ← cutSegments program ts
  cutEvents {} ss

/-- **No cut and no span fails**, whatever the program. -/
theorem scan?_eq (program : List Char) : scan? program = some (events {} (segments (tokens 0 program))) := by
  have htokens : cutTokens program 0 (Text.encode program) = some (tokens 0 program) := cutTokens_eq 0 program [] rfl
  have hsegments := cutSegments_eq program _ [] (remains_tokens program)
  rw [scan?, htokens, Option.bind_eq_bind, Option.bind_some, hsegments]
  exact cutEvents_eq _ _

end ThermalLabel.Zpl

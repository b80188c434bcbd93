import ThermalLabel.Language
import ThermalLabel.Element

/-!
# Fonts

ZPL draws text at any height. EPL2 and TSPL have five bitmap fonts each, and text takes the one whose height is nearest
to its size, of two equally near ones the smaller. So in these two languages only the height of a font is kept.
-/

namespace ThermalLabel

/-- A resident font: its index in programs, and the height of its characters. -/
structure BitmapFont where
  index : Nat
  height : PositiveDots
  deriving DecidableEq, Repr

/-- The fonts of EPL2. -/
def eplFonts : List BitmapFont :=
  [⟨1, ⟨12, by decide⟩⟩, ⟨2, ⟨16, by decide⟩⟩, ⟨3, ⟨20, by decide⟩⟩, ⟨4, ⟨24, by decide⟩⟩, ⟨5, ⟨48, by decide⟩⟩]

/-- The fonts of TSPL. -/
def tsplFonts : List BitmapFont :=
  [⟨1, ⟨12, by decide⟩⟩, ⟨2, ⟨20, by decide⟩⟩, ⟨3, ⟨24, by decide⟩⟩, ⟨4, ⟨32, by decide⟩⟩, ⟨5, ⟨48, by decide⟩⟩]

/-- The resident fonts of a language by index; ZPL needs none. -/
def Language.bitmapFonts : Language → List BitmapFont
  | .zpl => []
  | .epl => eplFonts
  | .tspl => tsplFonts

/-- The font with an index. -/
def Language.bitmapFont? (l : Language) (index : Nat) : Option BitmapFont :=
  l.bitmapFonts.find? fun f => f.index = index

/-- The font whose height is nearest to `size`; an earlier one wins a tie. -/
def nearestFont (size : PositiveDots) (first : BitmapFont) (others : List BitmapFont) : BitmapFont :=
  others.foldl
    (fun best f => if distance f.height.dots size.dots < distance best.height.dots size.dots then f else best) first

/-- The font in which EPL2 draws text of a size. -/
def eplFont (size : PositiveDots) : BitmapFont := nearestFont size ⟨1, ⟨12, by decide⟩⟩ eplFonts.tail

/-- The font in which TSPL draws text of a size. -/
def tsplFont (size : PositiveDots) : BitmapFont := nearestFont size ⟨1, ⟨12, by decide⟩⟩ tsplFonts.tail

/-- The width of a ZPL character: its height, and for bold text a fifth more, rounded up. -/
def characterWidth (style : TextStyle) : UInt32 :=
  if style.bold then addWord style.size.dots (fifthUp style.size.dots) else style.size.dots

/-- How a language draws text. -/
inductive FontChoice where
  /-- A scalable font at a height and width. -/
  | scalable (height : PositiveDots) (width : UInt32)
  /-- A resident font. -/
  | bitmap (font : BitmapFont)
  deriving DecidableEq, Repr

/-- The height of the characters drawn. -/
def FontChoice.height : FontChoice → PositiveDots
  | .scalable h _ => h
  | .bitmap f => f.height

/-- The font in which a language draws text of a style. -/
def Language.font (l : Language) (style : TextStyle) : FontChoice :=
  match l with
  | .zpl => .scalable style.size (characterWidth style)
  | .epl => .bitmap (eplFont style.size)
  | .tspl => .bitmap (tsplFont style.size)

end ThermalLabel

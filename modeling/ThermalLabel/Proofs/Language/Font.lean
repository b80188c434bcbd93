import Mathlib.Data.List.Nodup
import ThermalLabel.Language.Font

/-!
# The nearest font

A table of fonts is searched once from its beginning for the height nearest to a size. Where the heights ascend, what
the search finds is as near as any font and smaller than all that are as near (`isNearest_nearestFont`): a font that is
passed over was farther away, or as far and larger. The rest follows from this alone: a larger size never gets a
smaller font (`IsNearest.height_le_of_le`), and the height of a font gets this font again (`IsNearest.eq_of_height`).
**Text in a language with resident fonts** is drawn in such a font (`exists_drawnIn`).
-/

namespace ThermalLabel

/-! ## Nearest of a table -/

/-- A font of the table that is nearest to a size, and the smallest of those that are as near. -/
structure IsNearest (fonts : List BitmapFont) (size : PositiveDots) (f : BitmapFont) : Prop where
  mem : f ∈ fonts
  distance_le : ∀ g ∈ fonts, distance f.height.dots size.dots ≤ distance g.height.dots size.dots
  height_le : ∀ g ∈ fonts, distance g.height.dots size.dots = distance f.height.dots size.dots →
    f.height.dots ≤ g.height.dots

/-- A table whose heights ascend. -/
abbrev HeightsAscend (fonts : List BitmapFont) : Prop := fonts.Pairwise fun f g => f.height.dots < g.height.dots

theorem isNearest_singleton (size : PositiveDots) (f : BitmapFont) : IsNearest [f] size f where
  mem := List.mem_singleton.2 rfl
  distance_le g hg := by
    obtain rfl := List.mem_singleton.1 hg
    exact Nat.le_refl _
  height_le g hg _ := by
    obtain rfl := List.mem_singleton.1 hg
    exact UInt32.le_refl _

section Search

variable {size : PositiveDots} {first second f : BitmapFont} {others : List BitmapFont}

/-- A first font that is farther away than the second may be passed over. -/
theorem IsNearest.cons_of_lt (h : IsNearest (second :: others) size f)
    (hlt : distance second.height.dots size.dots < distance first.height.dots size.dots) :
    IsNearest (first :: second :: others) size f := by
  have hsecond := h.distance_le second List.mem_cons_self
  constructor
  case mem => exact List.mem_cons_of_mem _ h.mem
  case distance_le =>
    rintro g (_ | ⟨_, hg⟩)
    · omega
    · exact h.distance_le g hg
  case height_le =>
    rintro g (_ | ⟨_, hg⟩) heq
    · omega
    · exact h.height_le g hg heq

/-- A second font that is not nearer than the first, but larger, may be passed over. -/
theorem IsNearest.cons_of_le (h : IsNearest (first :: others) size f)
    (hle : distance first.height.dots size.dots ≤ distance second.height.dots size.dots)
    (hheight : first.height.dots < second.height.dots) : IsNearest (first :: second :: others) size f := by
  have hfirst := h.distance_le first List.mem_cons_self
  constructor
  case mem =>
    rcases List.mem_cons.1 h.mem with rfl | hmem
    · exact List.mem_cons_self
    · exact List.mem_cons_of_mem _ (List.mem_cons_of_mem _ hmem)
  case distance_le =>
    rintro g (_ | ⟨_, _ | ⟨_, hg⟩⟩)
    · exact hfirst
    · omega
    · exact h.distance_le g (List.mem_cons_of_mem _ hg)
  case height_le =>
    rintro g (_ | ⟨_, _ | ⟨_, hg⟩⟩) heq
    · exact h.height_le first List.mem_cons_self heq
    · have hheights : f.height.dots ≤ first.height.dots := h.height_le first List.mem_cons_self (by omega)
      exact UInt32.le_trans hheights (UInt32.le_of_lt hheight)
    · exact h.height_le g (List.mem_cons_of_mem _ hg) heq

end Search

/-- **The search finds the nearest font**, and of those as near the smallest. -/
theorem isNearest_nearestFont (size : PositiveDots) : ∀ {first : BitmapFont} {others : List BitmapFont},
    HeightsAscend (first :: others) → IsNearest (first :: others) size (nearestFont size first others)
  | first, [], _ => isNearest_singleton size first
  | first, second :: others, h => by
    obtain ⟨hfirst, hothers⟩ := List.pairwise_cons.1 h
    have hsearch : nearestFont size first (second :: others) = nearestFont size
        (if distance second.height.dots size.dots < distance first.height.dots size.dots then second else first)
        others := rfl
    rw [hsearch]
    by_cases hlt : distance second.height.dots size.dots < distance first.height.dots size.dots
    · rw [if_pos hlt]
      exact (isNearest_nearestFont size hothers).cons_of_lt hlt
    · rw [if_neg hlt]
      have hrest : HeightsAscend (first :: others) := List.pairwise_cons.2
        ⟨fun g hg => hfirst g (List.mem_cons_of_mem _ hg), (List.pairwise_cons.1 hothers).2⟩
      exact (isNearest_nearestFont size hrest).cons_of_le (Nat.le_of_not_lt hlt) (hfirst second List.mem_cons_self)

namespace IsNearest

variable {fonts : List BitmapFont} {f g : BitmapFont}

/-- **A larger size gets no smaller font**: a smaller one that is nearer to it is nearer to the smaller size too. -/
theorem height_le_of_le {n m : PositiveDots} (hf : IsNearest fonts n f) (hg : IsNearest fonts m g)
    (hle : n.dots ≤ m.dots) : f.height.dots ≤ g.height.dots := by
  rw [UInt32.le_iff_toNat_le] at hle
  by_contra hnot
  have hdistinct : distance g.height.dots n.dots ≠ distance f.height.dots n.dots :=
    fun heq => hnot (hf.height_le g hg.mem heq)
  have hnear := hf.distance_le g hg.mem
  have hfar := hg.distance_le f hf.mem
  rw [UInt32.le_iff_toNat_le] at hnot
  unfold distance at hdistinct hnear hfar
  omega

/-- No two fonts have the same height in a table whose heights ascend. -/
theorem eq_of_height_eq (h : HeightsAscend fonts) (hf : f ∈ fonts) (hg : g ∈ fonts)
    (heq : f.height.dots = g.height.dots) : f = g := by
  have hnodup : (fonts.map fun f => f.height.dots).Nodup :=
    List.pairwise_map.2 (h.imp fun hlt => UInt32.ne_of_lt hlt)
  exact List.inj_on_of_nodup_map hnodup hf hg heq

/-- **The height of a font gets this font.** -/
theorem eq_of_height (h : HeightsAscend fonts) (hf : f ∈ fonts) (hg : IsNearest fonts f.height g) : g = f := by
  have hnear := hg.distance_le f hf
  refine eq_of_height_eq h hg.mem hf ?_
  apply UInt32.toNat_inj.1
  unfold distance at hnear
  omega

end IsNearest

/-! ## Resident fonts -/

theorem heightsAscend_bitmapFonts (l : Language) : HeightsAscend l.bitmapFonts := by
  cases l <;> decide

/-- A font is found by its index. -/
theorem bitmapFont?_index {l : Language} {f : BitmapFont} (h : f ∈ l.bitmapFonts) :
    l.bitmapFont? f.index = some f := by
  have hall : ∀ f ∈ l.bitmapFonts, l.bitmapFont? f.index = some f := by
    cases l <;> decide
  exact hall f h

theorem isNearest_eplFont (size : PositiveDots) : IsNearest eplFonts size (eplFont size) :=
  isNearest_nearestFont size (heightsAscend_bitmapFonts .epl)

theorem isNearest_tsplFont (size : PositiveDots) : IsNearest tsplFonts size (tsplFont size) :=
  isNearest_nearestFont size (heightsAscend_bitmapFonts .tspl)

/-- The font of text is the nearest of the table, whatever else its style says. -/
theorem exists_isNearest {l : Language} (hl : l ≠ .zpl) (size : PositiveDots) :
    ∃ f, IsNearest l.bitmapFonts size f ∧ ∀ style : TextStyle, style.size = size → l.font style = .bitmap f := by
  cases l with
  | zpl => exact absurd rfl hl
  | epl => exact ⟨eplFont size, isNearest_eplFont size, by rintro style rfl; rfl⟩
  | tspl => exact ⟨tsplFont size, isNearest_tsplFont size, by rintro style rfl; rfl⟩

/-- The resident font in which a language draws text of a style. -/
structure DrawnIn (l : Language) (style : TextStyle) (f : BitmapFont) : Prop where
  font : l.font style = .bitmap f
  nearest : IsNearest l.bitmapFonts style.size f
  /-- The height of the font is told by its index. -/
  index : (l.bitmapFont? f.index).map BitmapFont.height = some f.height
  /-- Larger text gets no smaller font. -/
  larger : ∀ other : TextStyle, style.size.dots ≤ other.size.dots → f.height.dots ≤ (l.font other).height.dots
  /-- Text of the height of the font gets the same font. -/
  again : ∀ other : TextStyle, other.size = f.height → l.font other = .bitmap f

/-- **Text is drawn in the nearest resident font**, of two as near in the smaller one. -/
theorem exists_drawnIn {l : Language} (hl : l ≠ .zpl) (style : TextStyle) : ∃ f, DrawnIn l style f := by
  obtain ⟨f, hnearest, hfont⟩ := exists_isNearest hl style.size
  refine ⟨f, ?_⟩
  constructor
  case font => exact hfont style rfl
  case nearest => exact hnearest
  case index =>
    rw [bitmapFont?_index hnearest.mem]
    rfl
  case larger =>
    intro other hle
    obtain ⟨g, hg, hother⟩ := exists_isNearest hl other.size
    rw [hother other rfl]
    exact hnearest.height_le_of_le hg hle
  case again =>
    intro other hother
    obtain ⟨g, hg, hfont⟩ := exists_isNearest hl f.height
    rw [hfont other hother, hg.eq_of_height (heightsAscend_bitmapFonts l) hnearest.mem]

/-- Text of 14 dots is as far from 12 dots as from 16, and is drawn in the smaller font. -/
theorem exists_drawnIn_of_tie :
    Language.epl ≠ .zpl ∧ ∃ f, DrawnIn .epl { size := ⟨14, by decide⟩ } f ∧ f.height.dots = 12 := by
  have hl : Language.epl ≠ .zpl := by decide
  obtain ⟨f, hf⟩ := exists_drawnIn hl { size := ⟨14, by decide⟩ }
  refine ⟨hl, f, hf, ?_⟩
  rw [← FontChoice.bitmap.inj hf.font]
  decide

end ThermalLabel

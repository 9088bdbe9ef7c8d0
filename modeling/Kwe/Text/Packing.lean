import Kwe.Foundation.Limiter
import Kwe.Text.Agreement

/-!
What the glyph atlas holds: the slots of its glyphs never overlap, and each shows its glyph.

* `pack_spec`: a slot is taken out of the free part of the square;
* `Sound.draw`: drawing a glyph into its slot;
* `place_sound`: what placing glyphs keeps.
-/

namespace Kwe.Text

/-! ## Slots -/

def AtlasRect.Covers (rect : AtlasRect) (column row : Nat) : Prop :=
  (rect.x ≤ column ∧ column < rect.x + rect.w) ∧ rect.y ≤ row ∧ row < rect.y + rect.h

/-- The inner pixels of the slot are the glyph as it is rendered at this scale. -/
def Shows (font : Font) (scale : ℚ) (pixels : Pixels) (glyph : Nat) (rect : AtlasRect) : Prop :=
  ∃ coverage, font.renderGlyph glyph scale = some coverage ∧ ∃ bw bh,
    (((font.glyphBitmapBox glyph scale).ix1 - (font.glyphBitmapBox glyph scale).ix0).toNat = bw ∧
      ((font.glyphBitmapBox glyph scale).iy1 - (font.glyphBitmapBox glyph scale).iy0).toNat = bh) ∧
    (rect.w = bw + 2 * atlasPad ∧ rect.h = bh + 2 * atlasPad) ∧
    ∀ column < bw, ∀ row < bh,
      pixels (rect.x + atlasPad + column) (rect.y + atlasPad + row) =
        some (coverage (row * bw + column))

/-- The slots lie apart in the square, and each that is not empty shows its glyph at a scale in
use. -/
structure Holds (font : Font) (scales : List ℚ) (a : GlyphAtlas) : Prop where
  apart : ∀ glyph glyph' rect rect', a.entries glyph = some rect → a.entries glyph' = some rect' →
    glyph ≠ glyph' → ∀ column row, rect.Covers column row → ¬ rect'.Covers column row
  inside : ∀ glyph rect, a.entries glyph = some rect →
    rect.x + rect.w ≤ atlasSize ∧ rect.y + rect.h ≤ atlasSize
  drawn : ∀ glyph rect, a.entries glyph = some rect → 0 < rect.w → 0 < rect.h →
    ∃ scale ∈ scales, Shows font scale a.pixels glyph rect

/-! ## Shelves -/

/-- The rows lie one below the other. -/
def Stacked (rows : List ShelfRow) : Prop :=
  rows.Pairwise fun above below => above.y + above.height ≤ below.y

/-- Where the next row would start. -/
def bottom (rows : List ShelfRow) : Nat := rows.getLast?.elim 0 fun row => row.y + row.height

/-- The part of the square that a slot can still be taken from. -/
def Free (rows : List ShelfRow) (column row : Nat) : Prop :=
  (∃ shelf ∈ rows, shelf.y ≤ row ∧ row < shelf.y + shelf.height ∧ shelf.x ≤ column) ∨
    bottom rows ≤ row

theorem Stacked.le_bottom {rows : List ShelfRow} (h : Stacked rows) {shelf : ShelfRow}
    (hshelf : shelf ∈ rows) : shelf.y + shelf.height ≤ bottom rows := by
  induction rows generalizing shelf with
  | nil => exact absurd hshelf List.not_mem_nil
  | cons first rows ih =>
    obtain ⟨hfirst, hrest⟩ := List.pairwise_cons.mp h
    cases rows with
    | nil =>
      obtain rfl := List.mem_singleton.mp hshelf
      exact Nat.le_refl _
    | cons second rows =>
      have hbottom : bottom (first :: second :: rows) = bottom (second :: rows) := by
        simp [bottom, List.getLast?_cons_cons]
      rw [hbottom]
      rcases List.mem_cons.mp hshelf with rfl | hmem
      · have hsecond := hfirst second List.mem_cons_self
        have hle := ih hrest List.mem_cons_self
        omega
      · exact ih hrest hmem

theorem packRows_spec {w h x y : Nat} {rows rows' : List ShelfRow}
    (hpack : GlyphAtlas.packRows w h rows = some ((x, y), rows')) :
    ∃ above shelf below, rows = above ++ shelf :: below ∧
      rows' = above ++ { shelf with x := shelf.x + w } :: below ∧ x = shelf.x ∧ y = shelf.y ∧
      shelf.y + h ≤ atlasSize ∧ h ≤ shelf.height ∧ shelf.x + w ≤ atlasSize := by
  induction rows generalizing rows' with
  | nil => exact nomatch hpack
  | cons shelf rows ih =>
    rw [GlyphAtlas.packRows] at hpack
    split at hpack
    next hroom =>
      simp only [Option.some.injEq, Prod.mk.injEq] at hpack
      obtain ⟨⟨rfl, rfl⟩, rfl⟩ := hpack
      exact ⟨[], shelf, rows, rfl, rfl, rfl, rfl, hroom⟩
    next =>
      obtain ⟨⟨slot, rest⟩, hrest, heq⟩ := Option.map_eq_some_iff.mp hpack
      simp only [Prod.mk.injEq] at heq
      obtain ⟨rfl, rfl⟩ := heq
      obtain ⟨above, taken, below, rfl, rfl, hspec⟩ := ih hrest
      exact ⟨shelf :: above, taken, below, rfl, rfl, hspec⟩

/-- What a slot of these measures does to the rows. -/
structure Takes (rows : List ShelfRow) (slot : AtlasRect) (rows' : List ShelfRow) : Prop where
  stacked : Stacked rows'
  inside : slot.x + slot.w ≤ atlasSize ∧ slot.y + slot.h ≤ atlasSize
  free : ∀ column row, slot.Covers column row → Free rows column row
  left : ∀ column row, Free rows' column row → Free rows column row ∧ ¬ slot.Covers column row

theorem bottom_append_cons (above below : List ShelfRow) (shelf : ShelfRow) (x : Nat) :
    bottom (above ++ { shelf with x := x } :: below) = bottom (above ++ shelf :: below) := by
  cases below with
  | nil => simp [bottom]
  | cons next below => simp [bottom, List.getLast?_append, List.getLast?_cons_cons]

theorem takes_row {above below : List ShelfRow} {shelf : ShelfRow} {w h : Nat}
    (hstacked : Stacked (above ++ shelf :: below)) (hheight : shelf.y + h ≤ atlasSize)
    (hfits : h ≤ shelf.height) (hwidth : shelf.x + w ≤ atlasSize) :
    Takes (above ++ shelf :: below) ⟨shelf.x, shelf.y, w, h⟩
      (above ++ { shelf with x := shelf.x + w } :: below) := by
  have hmem : shelf ∈ above ++ shelf :: below := List.mem_append_right _ List.mem_cons_self
  have hlast := hstacked.le_bottom hmem
  obtain ⟨habove, hrest, hcross⟩ := List.pairwise_append.mp hstacked
  obtain ⟨hbelow, hpair⟩ := List.pairwise_cons.mp hrest
  refine ⟨?_, ⟨hwidth, hheight⟩, fun column row hcover => ?_, fun column row hfree => ?_⟩
  · refine List.pairwise_append.mpr ⟨habove, List.pairwise_cons.mpr ⟨hbelow, hpair⟩, ?_⟩
    intro upper hupper lower hlower
    rcases List.mem_cons.mp hlower with rfl | hlower
    · exact hcross upper hupper shelf List.mem_cons_self
    · exact hcross upper hupper lower (List.mem_cons_of_mem _ hlower)
  · obtain ⟨⟨hx, -⟩, hy, hrow⟩ := hcover
    refine .inl ⟨shelf, hmem, hy, ?_, hx⟩
    dsimp only at hrow
    omega
  · rw [Free, bottom_append_cons] at hfree
    rcases hfree with ⟨other, hother, hy, hrow, hx⟩ | hbottom
    · rcases List.mem_append.mp hother with hupper | hlower
      · have hapart := hcross other hupper shelf List.mem_cons_self
        refine ⟨.inl ⟨other, List.mem_append_left _ hupper, hy, hrow, hx⟩, fun hcover => ?_⟩
        have htop := hcover.2.1
        dsimp only at htop
        omega
      · rcases List.mem_cons.mp hlower with rfl | hlower
        · dsimp only at hy hrow hx
          refine ⟨.inl ⟨shelf, hmem, hy, hrow, by omega⟩, fun hcover => ?_⟩
          have hright := hcover.1.2
          dsimp only at hright
          omega
        · have hapart := hbelow other hlower
          refine ⟨.inl ⟨other, List.mem_append_right _ (List.mem_cons_of_mem _ hlower), hy, hrow,
            hx⟩, fun hcover => ?_⟩
          have hend := hcover.2.2
          dsimp only at hend
          omega
    · refine ⟨.inr hbottom, fun hcover => ?_⟩
      have hend := hcover.2.2
      dsimp only at hend
      omega

theorem takes_new {rows : List ShelfRow} {w h : Nat} (hstacked : Stacked rows)
    (hheight : bottom rows + h ≤ atlasSize) (hwidth : w ≤ atlasSize) :
    Takes rows ⟨0, bottom rows, w, h⟩ (rows ++ [⟨bottom rows, h, w⟩]) := by
  have hbottom : bottom (rows ++ [⟨bottom rows, h, w⟩]) = bottom rows + h := by
    simp [bottom, List.getLast?_append]
  refine ⟨?_, ⟨(Nat.zero_add w).symm ▸ hwidth, hheight⟩, fun column row hcover => .inr hcover.2.1,
    fun column row hfree => ?_⟩
  · refine List.pairwise_append.mpr ⟨hstacked, List.pairwise_singleton _ _, ?_⟩
    intro upper hupper lower hlower
    obtain rfl := List.mem_singleton.mp hlower
    exact hstacked.le_bottom hupper
  · rw [Free, hbottom] at hfree
    rcases hfree with ⟨shelf, hshelf, hy, hrow, hx⟩ | hbelow
    · rcases List.mem_append.mp hshelf with hmem | hmem
      · have hle := hstacked.le_bottom hmem
        refine ⟨.inl ⟨shelf, hmem, hy, hrow, hx⟩, fun hcover => ?_⟩
        have htop := hcover.2.1
        dsimp only at htop
        omega
      · obtain rfl := List.mem_singleton.mp hmem
        dsimp only at hy hrow hx
        refine ⟨.inr hy, fun hcover => ?_⟩
        have hright := hcover.1.2
        dsimp only at hright
        omega
    · refine ⟨.inr (by omega), fun hcover => ?_⟩
      have hend := hcover.2.2
      dsimp only at hend
      omega

/-- **Packing.**  A slot is taken out of the free part of the square. -/
theorem pack_spec {rows rows' : List ShelfRow} {bw bh x y : Nat} (hstacked : Stacked rows)
    (hw : bw ≤ maxGlyphBitmapDim) (hpack : GlyphAtlas.pack rows bw bh = some ((x, y), rows')) :
    Takes rows ⟨x, y, bw + 2 * atlasPad, bh + 2 * atlasPad⟩ rows' := by
  rw [GlyphAtlas.pack] at hpack
  split at hpack
  next packed hrows =>
    obtain rfl := Option.some.inj hpack
    obtain ⟨above, shelf, below, rfl, rfl, rfl, rfl, hheight, hfits, hwidth⟩ := packRows_spec hrows
    exact takes_row hstacked hheight hfits hwidth
  next =>
    dsimp only at hpack
    split at hpack
    next => exact nomatch hpack
    next hroom =>
      simp only [Option.some.injEq, Prod.mk.injEq] at hpack
      obtain ⟨⟨rfl, rfl⟩, rfl⟩ := hpack
      refine takes_new hstacked (Nat.not_lt.mp hroom) ?_
      have hmax : maxGlyphBitmapDim + 2 * atlasPad ≤ atlasSize := by decide
      omega

/-! ## Placing -/

structure Sound (font : Font) (scales : List ℚ) (a : GlyphAtlas) : Prop
    extends Holds font scales a where
  stacked : Stacked a.rows
  taken : ∀ glyph rect, a.entries glyph = some rect →
    ∀ column row, rect.Covers column row → ¬ Free a.rows column row

variable {font : Font} {scale : ℚ} {scales : List ℚ} {a : GlyphAtlas} {glyph : Nat}

theorem Sound.empty (h : a.entries = fun _ => none) (hrows : a.rows = []) :
    Sound font scales a := by
  have hnone : ∀ glyph rect, a.entries glyph ≠ some rect := by simp [h]
  exact ⟨⟨fun _ _ _ _ he => absurd he (hnone _ _), fun _ _ he => absurd he (hnone _ _),
    fun _ _ he => absurd he (hnone _ _)⟩, hrows ▸ List.Pairwise.nil,
    fun _ _ he => absurd he (hnone _ _)⟩

theorem Shows.mono {pixels pixels' : Pixels} {rect : AtlasRect}
    (h : Shows font scale pixels glyph rect)
    (hsame : ∀ column row, rect.Covers column row → pixels' column row = pixels column row) :
    Shows font scale pixels' glyph rect := by
  obtain ⟨coverage, hrender, bw, bh, hsize, hrect, hshows⟩ := h
  refine ⟨coverage, hrender, bw, bh, hsize, hrect, fun column hcolumn row hrow => ?_⟩
  rw [← hshows column hcolumn row hrow]
  refine hsame _ _ ?_
  simp only [AtlasRect.Covers, hrect.1, hrect.2, atlasPad]
  omega

theorem Sound.insert_empty (h : Sound font scales a) (glyph : Nat) :
    Sound font scales (a.insert glyph ⟨0, 0, 0, 0⟩) := by
  have hcases : ∀ g rect, (a.insert glyph ⟨0, 0, 0, 0⟩).entries g = some rect →
      rect = ⟨0, 0, 0, 0⟩ ∨ a.entries g = some rect := by
    intro g rect hrect
    simp only [GlyphAtlas.insert] at hrect
    split at hrect
    · exact .inl (Option.some.inj hrect).symm
    · exact .inr hrect
  have hbare : ∀ column row, ¬ (⟨0, 0, 0, 0⟩ : AtlasRect).Covers column row := by
    intro column row hcover
    exact absurd hcover.1.2 (Nat.not_lt_zero _)
  refine ⟨⟨?_, ?_, ?_⟩, h.stacked, ?_⟩
  · intro g g' rect rect' hg hg' hne column row hcover hcover'
    rcases hcases g rect hg with rfl | hold
    · exact hbare _ _ hcover
    · rcases hcases g' rect' hg' with rfl | hold'
      · exact hbare _ _ hcover'
      · exact h.apart g g' rect rect' hold hold' hne column row hcover hcover'
  · intro g rect hg
    rcases hcases g rect hg with rfl | hold
    · exact ⟨Nat.zero_le _, Nat.zero_le _⟩
    · exact h.inside g rect hold
  · intro g rect hg hw hh
    rcases hcases g rect hg with rfl | hold
    · exact absurd hw (Nat.lt_irrefl 0)
    · exact h.drawn g rect hold hw hh
  · intro g rect hg column row hcover
    rcases hcases g rect hg with rfl | hold
    · exact absurd hcover (hbare _ _)
    · exact h.taken g rect hold column row hcover

theorem blit_outside {pixels : Pixels} {slot : AtlasRect} {bw bh : Nat} {coverage : Nat → UInt8}
    {column row : Nat} (hw : slot.w = bw + 2 * atlasPad) (hh : slot.h = bh + 2 * atlasPad)
    (h : ¬ slot.Covers column row) :
    GlyphAtlas.blit pixels (slot.x + atlasPad) (slot.y + atlasPad) bw bh coverage column row =
      pixels column row := by
  refine if_neg fun hin => h ?_
  simp only [AtlasRect.Covers, hw, hh, atlasPad] at hin ⊢
  omega

theorem blit_inside (pixels : Pixels) {bw bh : Nat} (x y : Nat) (coverage : Nat → UInt8)
    {column row : Nat} (hcolumn : column < bw) (hrow : row < bh) :
    GlyphAtlas.blit pixels x y bw bh coverage (x + column) (y + row) =
      some (coverage (row * bw + column)) := by
  rw [GlyphAtlas.blit, if_pos (by omega)]
  simp

/-- The atlas after this slot was drawn. -/
def drawnIn (a : GlyphAtlas) (glyph : Nat) (slot : AtlasRect) (rows : List ShelfRow)
    (coverage : Nat → UInt8) : GlyphAtlas :=
  { a with
    pixels := GlyphAtlas.blit a.pixels (slot.x + atlasPad) (slot.y + atlasPad)
      (slot.w - 2 * atlasPad) (slot.h - 2 * atlasPad) coverage
    rows := rows }.insert glyph slot

theorem Sound.draw {slot : AtlasRect} {rows : List ShelfRow} {coverage : Nat → UInt8}
    (h : Sound font scales a) (hscale : scale ∈ scales)
    (hrender : font.renderGlyph glyph scale = some coverage)
    (hw : slot.w = ((font.glyphBitmapBox glyph scale).ix1 -
      (font.glyphBitmapBox glyph scale).ix0).toNat + 2 * atlasPad)
    (hh : slot.h = ((font.glyphBitmapBox glyph scale).iy1 -
      (font.glyphBitmapBox glyph scale).iy0).toNat + 2 * atlasPad)
    (htakes : Takes a.rows slot rows) :
    Sound font scales (drawnIn a glyph slot rows coverage) := by
  have hcases : ∀ g rect, (drawnIn a glyph slot rows coverage).entries g = some rect →
      (g = glyph ∧ rect = slot) ∨ (g ≠ glyph ∧ a.entries g = some rect) := by
    intro g rect hrect
    simp only [drawnIn, GlyphAtlas.insert] at hrect
    split at hrect
    next heq => exact .inl ⟨heq, (Option.some.inj hrect).symm⟩
    next hne => exact .inr ⟨hne, hrect⟩
  have hfresh : ∀ g rect, a.entries g = some rect → ∀ column row, rect.Covers column row →
      ¬ slot.Covers column row := fun g rect hg column row hcover hslot =>
    h.taken g rect hg column row hcover (htakes.free column row hslot)
  refine ⟨⟨?_, ?_, ?_⟩, htakes.stacked, ?_⟩
  · intro g g' rect rect' hg hg' hne column row hcover hcover'
    rcases hcases g rect hg with ⟨rfl, rfl⟩ | ⟨-, hold⟩
    · rcases hcases g' rect' hg' with ⟨rfl, -⟩ | ⟨-, hold'⟩
      · exact hne rfl
      · exact hfresh g' rect' hold' column row hcover' hcover
    · rcases hcases g' rect' hg' with ⟨rfl, rfl⟩ | ⟨-, hold'⟩
      · exact hfresh g rect hold column row hcover hcover'
      · exact h.apart g g' rect rect' hold hold' hne column row hcover hcover'
  · intro g rect hg
    rcases hcases g rect hg with ⟨rfl, rfl⟩ | ⟨-, hold⟩
    · exact htakes.inside
    · exact h.inside g rect hold
  · intro g rect hg hwidth hheight
    rcases hcases g rect hg with ⟨rfl, rfl⟩ | ⟨-, hold⟩
    · refine ⟨scale, hscale, coverage, hrender, _, _, ⟨rfl, rfl⟩, ⟨hw, hh⟩, ?_⟩
      intro column hcolumn row hrow
      simp only [drawnIn, GlyphAtlas.insert, hw, hh, Nat.add_sub_cancel]
      exact blit_inside _ _ _ _ hcolumn hrow
    · obtain ⟨scale', hscale', hshows⟩ := h.drawn g rect hold hwidth hheight
      refine ⟨scale', hscale', hshows.mono fun column row hcover => ?_⟩
      exact blit_outside (by omega) (by omega) (hfresh g rect hold column row hcover)
  · intro g rect hg column row hcover hfree
    obtain ⟨hbefore, hnot⟩ := htakes.left column row hfree
    rcases hcases g rect hg with ⟨rfl, rfl⟩ | ⟨-, hold⟩
    · exact hnot hcover
    · exact h.taken g rect hold column row hcover hbefore

/-- **Placing.**  What placing glyphs at a scale in use keeps. -/
theorem place_sound (hscale : scale ∈ scales) (glyphs : List Nat) (diag : TextDiag)
    (h : Sound font scales a) : Sound font scales (GlyphAtlas.place font scale glyphs a diag).2.1 := by
  fun_induction GlyphAtlas.place font scale glyphs a diag with
  | case1 => exact h
  | case2 _ _ _ _ _ ih => exact ih h
  | case3 _ _ _ _ _ _ _ _ _ ih => exact ih (h.insert_empty _)
  | case4 _ _ _ _ _ _ _ _ _ _ ih => exact ih h
  | case5 _ _ _ _ _ _ _ _ _ _ _ ih => exact ih h
  | case6 => exact h
  | case7 glyph glyphs a diag hmissing box bw bh hbox hsmall coverage hrender x y rows hpack
      pixels ih =>
    have hw : bw ≤ maxGlyphBitmapDim := Nat.not_lt.mp fun hlarge => hsmall (.inl hlarge)
    have hdraw : Sound font scales
        (drawnIn a glyph ⟨x, y, bw + 2 * atlasPad, bh + 2 * atlasPad⟩ rows coverage) :=
      h.draw hscale hrender rfl rfl (pack_spec h.stacked hw hpack)
    exact ih hdraw

end Kwe.Text

import Mathlib

/-!
The glyph atlas of a text layer and the layout of its text.

A font is what the rasterizer answers about an opened font file.  Positions are
exact.  Of a pixel of the atlas its coverage is kept: the colour is white
wherever a glyph was drawn.
-/

namespace Kwe.Text

def atlasSize : Nat := 2048

def atlasPad : Nat := 1

def atlasRebuildsPerSecond : Nat := 2

def maxGlyphBitmapDim : Nat := 520

def maxTextChars : Nat := 4096

def minFontPx : ℚ := 4

def maxFontPx : ℚ := 512

/-- A second, in nanoseconds. -/
def second : Nat := 10 ^ 9

/-! ## Fonts -/

/-- The box of a glyph's bitmap. -/
structure BitmapBox where
  ix0 : Int
  iy0 : Int
  ix1 : Int
  iy1 : Int
  deriving DecidableEq, Repr

structure Font where
  id : Nat
  glyphIndex : Char → Nat
  advance : Nat → Int
  scaleForPixelHeight : ℚ → ℚ
  glyphBitmapBox : Nat → ℚ → BitmapBox
  /-- The coverage of the bitmap, row by row. -/
  renderGlyph : Nat → ℚ → Option (Nat → UInt8)

/-! ## The atlas -/

structure AtlasRect where
  x : Nat
  y : Nat
  w : Nat
  h : Nat
  deriving DecidableEq, Repr

structure ShelfRow where
  y : Nat
  height : Nat
  x : Nat
  deriving DecidableEq, Repr

/-- What stops a glyph from being placed. -/
structure TextDiag where
  atlasRateLimited : Bool
  glyphTooLarge : Bool
  deriving DecidableEq, Repr

def TextDiag.default : TextDiag := ⟨false, false⟩

/-- The coverage at a column and a row, where a glyph was drawn. -/
abbrev Pixels := Nat → Nat → Option UInt8

structure GlyphAtlas where
  pixels : Pixels
  entries : Nat → Option AtlasRect
  rows : List ShelfRow
  /-- The times of the last rebuilds, in nanoseconds. -/
  rebuildTimes : List Nat

/-- The readings of the clock that one pass makes, in order. -/
abbrev Clock := Nat → Nat

namespace GlyphAtlas

def new : GlyphAtlas where
  pixels := fun _ _ => none
  entries := fun _ => none
  rows := []
  rebuildTimes := []

def clear (a : GlyphAtlas) : GlyphAtlas :=
  { a with pixels := fun _ _ => none, entries := fun _ => none, rows := [] }

/-- The rebuilds of the last second, as of `now`. -/
def recent (a : GlyphAtlas) (now : Nat) : List Nat :=
  a.rebuildTimes.filter fun t => decide (now - t < second)

def rebuildAllowed (a : GlyphAtlas) (now : Nat) : Bool :=
  decide ((a.recent now).length < atlasRebuildsPerSecond)

/-- What `rebuild_allowed` leaves. -/
def forget (a : GlyphAtlas) (now : Nat) : GlyphAtlas := { a with rebuildTimes := a.recent now }

def clearBudgeted (a : GlyphAtlas) (clock : Clock) : Bool × GlyphAtlas :=
  let b := a.forget (clock 0)
  if a.rebuildAllowed (clock 0) then
    (true, { b with rebuildTimes := b.rebuildTimes ++ [clock 1] }.clear)
  else (false, b)

/-- The first row with room. -/
def packRows (w h : Nat) : List ShelfRow → Option ((Nat × Nat) × List ShelfRow)
  | [] => none
  | row :: rows =>
    if row.y + h ≤ atlasSize ∧ h ≤ row.height ∧ row.x + w ≤ atlasSize then
      some ((row.x, row.y), { row with x := row.x + w } :: rows)
    else (packRows w h rows).map fun packed => (packed.1, row :: packed.2)

/-- The slot of a glyph's padded box. -/
def pack (rows : List ShelfRow) (bw bh : Nat) : Option ((Nat × Nat) × List ShelfRow) :=
  let w := bw + 2 * atlasPad
  let h := bh + 2 * atlasPad
  match packRows w h rows with
  | some packed => some packed
  | none =>
    let y := rows.getLast?.elim 0 fun row => row.y + row.height
    if atlasSize < y + h then none else some ((0, y), rows ++ [⟨y, h, w⟩])

/-- Copies a bitmap of this size to a place. -/
def blit (pixels : Pixels) (x y bw bh : Nat) (coverage : Nat → UInt8) : Pixels := fun column row =>
  if x ≤ column ∧ column < x + bw ∧ y ≤ row ∧ row < y + bh then
    some (coverage ((row - y) * bw + (column - x)))
  else pixels column row

def insert (a : GlyphAtlas) (glyph : Nat) (rect : AtlasRect) : GlyphAtlas :=
  { a with entries := fun g => if g = glyph then some rect else a.entries g }

section Font

variable (font : Font) (scale : ℚ)

/-- Places the glyphs in their order, and tells whether all that can be drawn
found room. -/
def place : List Nat → GlyphAtlas → TextDiag → Bool × GlyphAtlas × TextDiag
  | [], a, diag => (true, a, diag)
  | glyph :: glyphs, a, diag =>
    if (a.entries glyph).isSome then place glyphs a diag
    else
      let box := font.glyphBitmapBox glyph scale
      let bw := (box.ix1 - box.ix0).toNat
      let bh := (box.iy1 - box.iy0).toNat
      if bw = 0 ∨ bh = 0 then place glyphs (a.insert glyph ⟨0, 0, 0, 0⟩) diag
      else if maxGlyphBitmapDim < bw ∨ maxGlyphBitmapDim < bh then
        place glyphs a { diag with glyphTooLarge := true }
      else
        match font.renderGlyph glyph scale with
        | none => place glyphs a diag
        | some coverage =>
          match pack a.rows bw bh with
          | none => (false, a, diag)
          | some ((x, y), rows) =>
            let pixels := blit a.pixels (x + atlasPad) (y + atlasPad) bw bh coverage
            place glyphs
              ({ a with pixels := pixels, rows := rows }.insert glyph
                ⟨x, y, bw + 2 * atlasPad, bh + 2 * atlasPad⟩)
              diag

/-- The glyphs that are missing, each once. -/
def needed (a : GlyphAtlas) (glyphs : List Nat) : List Nat :=
  (glyphs.filter fun glyph => (a.entries glyph).isNone).eraseDups

/-- The missing glyphs do not all find room. -/
def overflows (a : GlyphAtlas) (glyphs : List Nat) : Bool :=
  !(place font scale (a.needed glyphs) a .default).1

/-- What was left out, whether the content counts as changed, and the atlas. -/
def sync (a : GlyphAtlas) (glyphs : List Nat) (clock : Clock) : TextDiag × Bool × GlyphAtlas :=
  if (a.needed glyphs).isEmpty then (.default, false, a)
  else
    match place font scale (a.needed glyphs) a .default with
    | (true, a, diag) => (diag, true, a)
    | (false, a, diag) =>
      let b := a.forget (clock 2)
      if a.rebuildAllowed (clock 2) then
        let b := { b with rebuildTimes := b.rebuildTimes ++ [clock 3] }.clear
        let placed := place font scale glyphs.eraseDups b diag
        (placed.2.2, true, placed.2.1)
      else ({ diag with atlasRateLimited := true }, false, b)

end Font

end GlyphAtlas

/-! ## The layout -/

inductive HorizontalAlign
  | left | center | right
  deriving DecidableEq, Repr

inductive VerticalAlign
  | top | center | bottom
  deriving DecidableEq, Repr

structure GlyphPlacement where
  glyph : Nat
  penX : ℚ
  box : BitmapBox
  deriving DecidableEq, Repr

structure TextLayout where
  placements : List GlyphPlacement
  minX : ℚ
  maxX : ℚ
  minY : ℚ
  maxY : ℚ
  scale : ℚ
  deriving DecidableEq, Repr

/-- The glyphs of a text one after another, from this pen position. -/
def placements (font : Font) (scale : ℚ) : ℚ → List Char → List GlyphPlacement
  | _, [] => []
  | penX, c :: cs =>
    let glyph := font.glyphIndex c
    ⟨glyph, penX, font.glyphBitmapBox glyph scale⟩ ::
      placements font scale (penX + font.advance glyph * scale) cs

/-- The least of some numbers, or zero without any. -/
def least (values : List ℚ) : ℚ :=
  match values with
  | [] => 0
  | value :: values => values.foldl min value

def greatest (values : List ℚ) : ℚ :=
  match values with
  | [] => 0
  | value :: values => values.foldl max value

def layoutText (font : Font) (text : List Char) (px : ℚ) (charsCap : Nat) : TextLayout :=
  let scale := font.scaleForPixelHeight (max minFontPx (min px maxFontPx))
  let placed := placements font scale 0 (text.take charsCap)
  { placements := placed
    minX := least (placed.map fun p => p.penX + p.box.ix0)
    maxX := greatest (placed.map fun p => p.penX + p.box.ix1)
    minY := least (placed.map fun p => p.box.iy0)
    maxY := greatest (placed.map fun p => p.box.iy1)
    scale := scale }

/-- The point of the layout that the origin of the layer lands on. -/
def anchorOffset (layout : TextLayout) (h : HorizontalAlign) (v : VerticalAlign) : ℚ × ℚ :=
  (match h with
    | .left => layout.minX
    | .center => (layout.minX + layout.maxX) / 2
    | .right => layout.maxX,
   match v with
    | .top => layout.minY
    | .center => (layout.minY + layout.maxY) / 2
    | .bottom => layout.maxY)

/-- A vertex: its position and the point of the atlas it shows. -/
structure Vertex where
  x : ℚ
  y : ℚ
  u : ℚ
  v : ℚ
  deriving DecidableEq, Repr

/-- The two triangles of a glyph. -/
def quad (p : GlyphPlacement) (anchor : ℚ × ℚ) (rect : AtlasRect) : List Vertex :=
  let x0 := p.penX + p.box.ix0 - anchor.1
  let y0 := p.box.iy0 - anchor.2
  let x1 := p.penX + p.box.ix1 - anchor.1
  let y1 := p.box.iy1 - anchor.2
  let u0 : ℚ := (rect.x + atlasPad) / atlasSize
  let v0 : ℚ := (rect.y + atlasPad) / atlasSize
  let u1 : ℚ := (rect.x + rect.w - atlasPad) / atlasSize
  let v1 : ℚ := (rect.y + rect.h - atlasPad) / atlasSize
  [⟨x0, y0, u0, v0⟩, ⟨x1, y0, u1, v0⟩, ⟨x1, y1, u1, v1⟩, ⟨x1, y1, u1, v1⟩, ⟨x0, y1, u0, v1⟩,
    ⟨x0, y0, u0, v0⟩]

/-- The vertices of the glyphs that the atlas has, and how many quads these
are. -/
def buildVertexBytes (placed : List GlyphPlacement) (anchor : ℚ × ℚ) (atlas : GlyphAtlas) :
    List Vertex × Nat :=
  match placed with
  | [] => ([], 0)
  | p :: placed =>
    let rest := buildVertexBytes placed anchor atlas
    match atlas.entries p.glyph with
    | none => rest
    | some rect =>
      if rect.w = 0 ∨ rect.h = 0 then rest
      else (quad p anchor rect ++ rest.1, rest.2 + 1)

theorem length_buildVertexBytes (placed : List GlyphPlacement) (anchor : ℚ × ℚ)
    (atlas : GlyphAtlas) :
    (buildVertexBytes placed anchor atlas).1.length =
      (buildVertexBytes placed anchor atlas).2 * 6 := by
  induction placed with
  | nil => rfl
  | cons p placed ih =>
    unfold buildVertexBytes
    dsimp only
    split
    next => exact ih
    next =>
      split
      next => exact ih
      next =>
        rw [List.length_append, ih]
        simp [quad]
        omega

end Kwe.Text

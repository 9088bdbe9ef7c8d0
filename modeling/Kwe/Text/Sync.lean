import Kwe.Text.Atlas

/-!
The text layers of a scene and the passes that keep their glyphs on the GPU.

A pass goes over the text layers with changes: it resolves the font, brings the
atlas and the vertices up to date and uploads both.  How an upload ends is an
input.  One that runs into the fence timeout ends the worker and does not occur.
-/

namespace Kwe.Text

def defaultFontPx : ℚ := 48

/-- The bytes that images and atlases share. -/
def maxTotalTextureBytes : Nat := 256 * 1024 * 1024

def atlasBytes : Nat := atlasSize * atlasSize * 4

def textureBudgetAllows (usedBytes width height : Nat) : Bool :=
  decide (usedBytes + width * height * 4 ≤ maxTotalTextureBytes)

/-! ## What a script writes -/

/-- A pixel size in the range of the layout. -/
abbrev FontPx := { px : ℚ // minFontPx ≤ px ∧ px ≤ maxFontPx }

/-- The size that a number written by a script stands for; without a finite
number it is the default. -/
def clampPointsizePx (value : Option ℚ) : FontPx :=
  match value with
  | some value =>
    ⟨max minFontPx (min value maxFontPx), le_max_left _ _,
      max_le (by norm_num [minFontPx, maxFontPx]) (min_le_right _ _)⟩
  | none =>
    ⟨defaultFontPx, by norm_num [minFontPx, defaultFontPx], by norm_num [maxFontPx, defaultFontPx]⟩

/-- To the nearest whole number, halves away from zero. -/
def round (value : ℚ) : Int := if 0 ≤ value then ⌊value + 1 / 2⌋ else -⌊-value + 1 / 2⌋

def clampAlignH (value : Option ℚ) : HorizontalAlign :=
  match max 0 (min (value.elim 1 round) 2) with
  | 0 => .left
  | 2 => .right
  | _ => .center

def clampAlignV (value : Option ℚ) : VerticalAlign :=
  match clampAlignH value with
  | .left => .top
  | .right => .bottom
  | .center => .center

/-- A write of a script to a layer.  Numbers that are not finite are `none`. -/
inductive Write
  | text (text : String)
  | pointsize (value : Option ℚ)
  | horizontalAlign (value : Option ℚ)
  | verticalAlign (value : Option ℚ)
  | color
  | visible (value : Bool)
  deriving DecidableEq, Repr

/-! ## The layers -/

structure TextState where
  text : List Char
  font : Option String
  pointsizePx : FontPx
  horizontalAlign : HorizontalAlign
  verticalAlign : VerticalAlign
  dirty : Bool
  vertexCount : Nat
  deriving DecidableEq

/-- What the renderer keeps of a text layer. -/
structure TextLayerRuntime where
  fontId : Nat
  scale : ℚ
  atlas : GlyphAtlas
  vertexBytes : List Vertex
  atlasChanged : Bool
  budgetCounted : Bool

def TextLayerRuntime.default : TextLayerRuntime where
  fontId := 0
  scale := 0
  atlas := .new
  vertexBytes := []
  atlasChanged := false
  budgetCounted := false

/-- What was last uploaded for a layer. -/
structure Gpu where
  atlas : Option Pixels
  vertices : Option (List Vertex)

/-- A layer with the entries that the renderer and the caller keep for it.  The
last two fields record what the last passes did and are read by no step. -/
structure Layer where
  visible : Bool
  text : Option TextState
  runtime : Option TextLayerRuntime
  textureOk : Bool
  gpu : Gpu
  /-- The last pass over the layer left a glyph out because of the rate limit. -/
  leftOut : Bool
  /-- Whether the last pass that had something to upload uploaded all of it. -/
  uploaded : Option Bool

def TextState.write (text : TextState) (w : Write) : TextState :=
  match w with
  | .text value => { text with text := value.toList.take maxTextChars, dirty := true }
  | .pointsize value => { text with pointsizePx := clampPointsizePx value, dirty := true }
  | .horizontalAlign value => { text with horizontalAlign := clampAlignH value, dirty := true }
  | .verticalAlign value => { text with verticalAlign := clampAlignV value, dirty := true }
  | .color => { text with dirty := true }
  | .visible _ => text

def Layer.write (layer : Layer) (w : Write) : Layer :=
  match w with
  | .visible value => { layer with visible := value }
  | w => { layer with text := layer.text.map fun text => text.write w }

/-! ## A pass over one layer -/

inductive Upload
  | ok | failed
  deriving DecidableEq, Repr

/-- What a pass over one layer meets: the fonts found, the readings of the clock
and how the uploads end. -/
structure PassIo where
  resolve : String → Option Font
  clock : Clock
  atlas : Upload
  vertices : Upload

namespace TextLayerRuntime

/-- A new font or size clears the atlas, when a rebuild is allowed. -/
def refresh (r : TextLayerRuntime) (font : Option Font) (px : ℚ) (clock : Clock) :
    Bool × TextLayerRuntime :=
  let fontId := font.elim 0 Font.id
  if r.fontId ≠ fontId ∨ r.scale ≠ px then
    match r.atlas.clearBudgeted clock with
    | (true, atlas) =>
      (true, { r with atlas := atlas, fontId := fontId, scale := px, atlasChanged := true })
    | (false, atlas) => (false, { r with atlas := atlas })
  else (true, r)

def layout (text : TextState) (font : Font) : TextLayout :=
  layoutText font (text.text.take maxTextChars) text.pointsizePx maxTextChars

def glyphs (layout : TextLayout) : List Nat := layout.placements.map GlyphPlacement.glyph

/-- Brings the atlas and the vertices up to date. -/
def relayout (r : TextLayerRuntime) (text : TextState) (font : Option Font) (clock : Clock) :
    TextDiag × TextLayerRuntime × Nat :=
  match font with
  | some font =>
    let layout := layout text font
    let (diag, changed, atlas) := r.atlas.sync font layout.scale (glyphs layout) clock
    let anchor := anchorOffset layout text.horizontalAlign text.verticalAlign
    let (bytes, quads) := buildVertexBytes layout.placements anchor atlas
    (diag,
      { r with atlas := atlas, atlasChanged := r.atlasChanged || changed, vertexBytes := bytes },
      quads * 6)
  | none => (.default, { r with atlas := r.atlas.clear, atlasChanged := true, vertexBytes := [] }, 0)

/-- The budget is used up, and the atlas is skipped. -/
def refused (r : TextLayerRuntime) (used : Nat) : Bool :=
  !r.budgetCounted && !textureBudgetAllows used atlasSize atlasSize

/-- Uploads a changed atlas: whether nothing went wrong, the entries, and the
bytes that count as used. -/
def uploadAtlas (r : TextLayerRuntime) (gpu : Gpu) (used : Nat) (answer : Upload) :
    Bool × TextLayerRuntime × Gpu × Nat :=
  if r.atlasChanged then
    let r := { r with atlasChanged := false }
    if r.refused used then (false, r, gpu, used)
    else
      let used := if r.budgetCounted then used else used + atlasBytes
      match answer with
      | .ok => (true, { r with budgetCounted := true }, { gpu with atlas := r.atlas.pixels }, used)
      | .failed => (false, { r with budgetCounted := false }, gpu, used - atlasBytes)
  else (true, r, gpu, used)

/-- Uploads the vertices, unless something went wrong before. -/
def uploadVertices (r : TextLayerRuntime) (gpu : Gpu) (ok : Bool) (answer : Upload) : Bool × Gpu :=
  if ok && !r.vertexBytes.isEmpty then
    match answer with
    | .ok => (true, { gpu with vertices := r.vertexBytes })
    | .failed => (false, gpu)
  else (ok, gpu)

/-- Uploads the atlas and then the vertices. -/
def upload (r : TextLayerRuntime) (gpu : Gpu) (used : Nat) (io : PassIo) :
    Bool × TextLayerRuntime × Gpu × Nat :=
  let (ok, s, gpu, used) := r.uploadAtlas gpu used io.atlas
  let (ok, gpu) := s.uploadVertices gpu ok io.vertices
  (ok, s, gpu, used)

/-- There is something to upload. -/
def uploads (r : TextLayerRuntime) : Bool := r.atlasChanged || !r.vertexBytes.isEmpty

end TextLayerRuntime

/-- The pass over a text layer with changes: whether no upload failed, the layer,
and the bytes that count as used. -/
def Layer.sync (layer : Layer) (text : TextState) (used : Nat) (io : PassIo) :
    Bool × Layer × Nat :=
  let font := io.resolve (text.font.getD "")
  match (layer.runtime.getD .default).refresh font text.pointsizePx io.clock with
  | (false, r) => (true, { layer with runtime := some r, leftOut := true }, used)
  | (true, r) =>
    let (diag, r, vertexCount) := r.relayout text font io.clock
    let (ok, s, gpu, used) := r.upload layer.gpu used io
    (ok,
      { layer with
        text := some { text with dirty := false, vertexCount := vertexCount }
        runtime := some s
        gpu := gpu
        leftOut := diag.atlasRateLimited
        uploaded := if r.uploads then some ok else layer.uploaded },
      used)

/-- The text of a layer that the next pass goes over. -/
def Layer.pending (layer : Layer) : Option TextState := layer.text.filter TextState.dirty

/-! ## The scene -/

/-- The layers, the bytes of the images that are loaded, and the bytes that the
renderer counts for atlases. -/
structure Scene where
  layers : List Layer
  imageBytes : Nat
  atlasBytesUsed : Nat

/-- The pass over all layers from this index: the layers, the indices of those
with a failed upload, and the bytes that count as used. -/
def syncAndUpload (io : Nat → PassIo) : Nat → List Layer → Nat → List Layer × List Nat × Nat
  | _, [], used => ([], [], used)
  | i, layer :: layers, used =>
    match layer.pending with
    | none =>
      let (layers, failed, used) := syncAndUpload io (i + 1) layers used
      (layer :: layers, failed, used)
    | some text =>
      let (ok, layer, used) := layer.sync text used (io i)
      let (layers, failed, used) := syncAndUpload io (i + 1) layers used
      (layer :: layers, if ok then failed else i :: failed, used)

/-- The layers from this index are not drawn where an upload failed. -/
def suppress (failed : List Nat) : Nat → List Layer → List Layer
  | _, [] => []
  | i, layer :: layers =>
    (if i ∈ failed then { layer with textureOk := false } else layer) ::
      suppress failed (i + 1) layers

def Scene.syncText (scene : Scene) (io : Nat → PassIo) : Scene :=
  let (layers, failed, used) := syncAndUpload io 0 scene.layers scene.atlasBytesUsed
  { scene with layers := suppress failed 0 layers, atlasBytesUsed := used }

inductive DrawKind
  | image
  | text (vertexCount : Nat)
  deriving DecidableEq, Repr

structure LayerDraw where
  layerIndex : Nat
  kind : DrawKind
  deriving DecidableEq, Repr

/-- The draw of a layer, when it has one. -/
def Layer.draw (layer : Layer) : Option DrawKind :=
  if !layer.visible || !layer.textureOk then none
  else
    match layer.text with
    | some text => if 0 < text.vertexCount then some (.text text.vertexCount) else none
    | none => some .image

/-- The draws of the layers from this index. -/
def frameDraws : Nat → List Layer → List LayerDraw
  | _, [] => []
  | i, layer :: layers =>
    match layer.draw with
    | some kind => ⟨i, kind⟩ :: frameDraws (i + 1) layers
    | none => frameDraws (i + 1) layers

/-- What happens to a scene: a script writes to a layer, or a pass is made. -/
inductive Input
  | write (index : Nat) (w : Write)
  | sync (io : Nat → PassIo)

def Scene.step (scene : Scene) (i : Input) : Scene :=
  match i with
  | .write index w => { scene with layers := scene.layers.modify index fun layer => layer.write w }
  | .sync io => scene.syncText io

end Kwe.Text

import Kwe.Foundation.Runs
import Kwe.Text.Sync

/-!
What is drawn of the text layers is what was last uploaded for them.

* `GlyphAtlas.sync_unchanged`: content that does not count as changed is the
  old content, unless a glyph was left out;
* `Layer.Consistent.sync`: what a pass over one layer keeps;
* `run_agrees`: the agreement in every run whose calls are steady;
* `loaded_disagrees`: three runs without it.
-/

namespace Kwe.Text

open Foundation.Runs

/-! ## The atlas -/

namespace GlyphAtlas

theorem place_keeps (font : Font) (scale : ℚ) (glyphs : List Nat) (a : GlyphAtlas)
    (diag : TextDiag) :
    (place font scale glyphs a diag).2.1.rebuildTimes = a.rebuildTimes ∧
      (place font scale glyphs a diag).2.2.atlasRateLimited = diag.atlasRateLimited := by
  fun_induction place font scale glyphs a diag with
  | case1 => exact ⟨rfl, rfl⟩
  | case2 _ _ _ _ _ ih => exact ih
  | case3 _ _ _ _ _ _ _ _ _ ih => exact ih
  | case4 _ _ _ _ _ _ _ _ _ _ ih => exact ih
  | case5 _ _ _ _ _ _ _ _ _ _ _ ih => exact ih
  | case6 => exact ⟨rfl, rfl⟩
  | case7 _ _ _ _ _ _ _ _ _ _ _ _ _ _ _ _ _ ih => exact ih

theorem rebuildAllowed_congr {a b : GlyphAtlas} (h : a.rebuildTimes = b.rebuildTimes)
    (now : Nat) : a.rebuildAllowed now = b.rebuildAllowed now := by
  have hrecent : a.recent now = b.recent now := by simp only [recent, h]
  simp only [rebuildAllowed, hrecent]

/-- Glyphs are missing that find no room, and no rebuild is allowed. -/
def rateLimited (font : Font) (scale : ℚ) (a : GlyphAtlas) (glyphs : List Nat) (clock : Clock) :
    Bool :=
  a.overflows font scale glyphs && !a.rebuildAllowed (clock 2)

theorem sync_atlasRateLimited (font : Font) (scale : ℚ) (a : GlyphAtlas) (glyphs : List Nat)
    (clock : Clock) :
    (a.sync font scale glyphs clock).1.atlasRateLimited =
      a.rateLimited font scale glyphs clock := by
  obtain ⟨htimes, hdiag⟩ := place_keeps font scale (a.needed glyphs) a .default
  unfold sync rateLimited overflows
  split
  next hempty =>
    rw [List.isEmpty_iff.mp hempty]
    rfl
  next =>
    split
    next b diag heq =>
      rw [heq] at hdiag ⊢
      exact hdiag
    next b diag heq =>
      rw [heq] at hdiag htimes ⊢
      rw [← rebuildAllowed_congr htimes]
      dsimp only
      split
      next hallowed =>
        rw [(place_keeps ..).2, hallowed]
        exact hdiag
      next hdenied => simp [hdenied]

theorem sync_unchanged {font : Font} {scale : ℚ} {a : GlyphAtlas} {glyphs : List Nat}
    {clock : Clock} (hlimit : a.rateLimited font scale glyphs clock = false)
    (h : (a.sync font scale glyphs clock).2.1 = false) :
    (a.sync font scale glyphs clock).2.2 = a := by
  rw [← sync_atlasRateLimited] at hlimit
  unfold sync at h hlimit ⊢
  split
  next => rfl
  next hempty =>
    rw [if_neg hempty] at h hlimit
    split at h
    next => cases h
    next heq =>
      rw [heq] at hlimit
      dsimp only at h hlimit
      split at h
      next => cases h
      next hdenied =>
        rw [if_neg hdenied] at hlimit
        cases hlimit

theorem clearBudgeted_new (clock : Clock) : (GlyphAtlas.new.clearBudgeted clock).1 = true := rfl

theorem clearBudgeted_pixels {a : GlyphAtlas} {clock : Clock}
    (h : (a.clearBudgeted clock).1 = false) : (a.clearBudgeted clock).2.pixels = a.pixels := by
  unfold clearBudgeted at h ⊢
  dsimp only at h ⊢
  split at h
  next => cases h
  next hdenied =>
    rw [if_neg hdenied]
    rfl

end GlyphAtlas

/-! ## A pass over one layer -/

namespace TextLayerRuntime

theorem refresh_default (font : Option Font) (px : FontPx) (clock : Clock) :
    (default.refresh font px clock).1 = true := by
  have hscale : (0 : ℚ) ≠ px := ne_of_lt (lt_of_lt_of_le (by norm_num [minFontPx]) px.2.1)
  unfold refresh
  rw [if_pos (.inr hscale)]
  rfl

/-- What holds of a runtime whose atlas and vertices are on the GPU. -/
structure Current (r : TextLayerRuntime) (gpu : Gpu) : Prop where
  atlasChanged : r.atlasChanged = false
  atlas : gpu.atlas = some r.atlas.pixels
  vertices : r.vertexBytes ≠ [] → gpu.vertices = some r.vertexBytes

theorem refresh_denied {r : TextLayerRuntime} {font : Option Font} {px : ℚ} {clock : Clock}
    (h : (r.refresh font px clock).1 = false) :
    ∃ atlas : GlyphAtlas, atlas.pixels = r.atlas.pixels ∧
      (r.refresh font px clock).2 = { r with atlas := atlas } := by
  unfold refresh at h ⊢
  dsimp only at h ⊢
  split at h
  next hnew =>
    rw [if_pos hnew]
    split at h
    next => cases h
    next atlas heq =>
      have hpixels (hdenied : (r.atlas.clearBudgeted clock).1 = false) :=
        GlyphAtlas.clearBudgeted_pixels hdenied
      rw [heq] at hpixels
      exact ⟨atlas, hpixels rfl, rfl⟩
  next => cases h

/-- A refresh that goes on marks the atlas or changes nothing. -/
theorem refresh_done {r : TextLayerRuntime} {font : Option Font} {px : ℚ} {clock : Clock}
    (h : (r.refresh font px clock).1 = true) :
    (r.refresh font px clock).2 = r ∧ r.scale = px ∨
      (r.refresh font px clock).2.atlasChanged = true := by
  unfold refresh at h ⊢
  dsimp only at h ⊢
  split at h
  next hnew =>
    rw [if_pos hnew]
    split at h
    next => exact .inr rfl
    next => cases h
  next hsame =>
    rw [if_neg hsame]
    exact .inl ⟨rfl, not_not.mp fun hne => hsame (.inr hne)⟩

/-- The layout of the text leaves a glyph out because of the rate limit. -/
def rateLimited (r : TextLayerRuntime) (text : TextState) (font : Option Font) (clock : Clock) :
    Bool :=
  font.any fun font =>
    r.atlas.rateLimited font (layout text font).scale (glyphs (layout text font)) clock

section Relayout

variable (r : TextLayerRuntime) (text : TextState) (font : Option Font) (clock : Clock)

theorem relayout_atlasRateLimited :
    (r.relayout text font clock).1.atlasRateLimited = r.rateLimited text font clock := by
  cases font with
  | none => rfl
  | some font => exact GlyphAtlas.sync_atlasRateLimited ..

theorem relayout_vertexCount :
    (r.relayout text font clock).2.2 = (r.relayout text font clock).2.1.vertexBytes.length := by
  cases font with
  | none => rfl
  | some font => exact (length_buildVertexBytes ..).symm

/-- The pixels stay where the atlas does not count as changed. -/
theorem relayout_unchanged (hlimit : r.rateLimited text font clock = false)
    (h : (r.relayout text font clock).2.1.atlasChanged = false) :
    r.atlasChanged = false ∧ (r.relayout text font clock).2.1.atlas = r.atlas := by
  cases font with
  | none => cases h
  | some font =>
    obtain ⟨hold, hsync⟩ := Bool.or_eq_false_iff.mp h
    exact ⟨hold, GlyphAtlas.sync_unchanged hlimit hsync⟩

end Relayout

/-- An upload that is asked for fails. -/
def fails (r : TextLayerRuntime) (used : Nat) (io : PassIo) : Bool :=
  r.atlasChanged && (r.refused used || io.atlas == .failed) ||
    !r.vertexBytes.isEmpty && io.vertices == .failed

theorem uploads_of_fails {r : TextLayerRuntime} {used : Nat} {io : PassIo}
    (h : r.fails used io = true) : r.uploads = true := by
  unfold fails at h
  unfold uploads
  rcases Bool.or_eq_true_iff.mp h with h | h
  · rw [(Bool.and_eq_true_iff.mp h).1, Bool.true_or]
  · rw [(Bool.and_eq_true_iff.mp h).1, Bool.or_true]

section Uploads

variable (r : TextLayerRuntime) (gpu : Gpu) (used : Nat) (io : PassIo)

/-- What the upload of an atlas can do. -/
theorem uploadAtlas_cases (answer : Upload) :
    (r.atlasChanged = false ∧ r.uploadAtlas gpu used answer = (true, r, gpu, used)) ∨
    (r.atlasChanged = true ∧ r.refused used = true ∧
      r.uploadAtlas gpu used answer = (false, { r with atlasChanged := false }, gpu, used)) ∨
    (r.atlasChanged = true ∧ r.refused used = false ∧ answer = .ok ∧
      r.uploadAtlas gpu used answer =
        (true, { r with atlasChanged := false, budgetCounted := true },
          { gpu with atlas := r.atlas.pixels },
          if r.budgetCounted then used else used + atlasBytes)) ∨
    (r.atlasChanged = true ∧ r.refused used = false ∧ answer = .failed ∧
      r.uploadAtlas gpu used answer =
        (false, { r with atlasChanged := false, budgetCounted := false }, gpu,
          (if r.budgetCounted then used else used + atlasBytes) - atlasBytes)) := by
  cases hchanged : r.atlasChanged with
  | false => simp [uploadAtlas, hchanged]
  | true =>
    have hsame : ({ r with atlasChanged := false } : TextLayerRuntime).refused used =
        r.refused used := rfl
    cases hrefused : r.refused used with
    | true => simp [uploadAtlas, hchanged, hsame, hrefused]
    | false => cases answer <;> simp [uploadAtlas, hchanged, hsame, hrefused]

theorem uploadVertices_cases (ok : Bool) (answer : Upload) :
    ((ok = false ∨ r.vertexBytes = []) ∧ r.uploadVertices gpu ok answer = (ok, gpu)) ∨
    (ok = true ∧ r.vertexBytes ≠ [] ∧ answer = .ok ∧
      r.uploadVertices gpu ok answer = (true, { gpu with vertices := r.vertexBytes })) ∨
    (ok = true ∧ r.vertexBytes ≠ [] ∧ answer = .failed ∧
      r.uploadVertices gpu ok answer = (false, gpu)) := by
  cases ok with
  | false => exact .inl ⟨.inl rfl, rfl⟩
  | true =>
    cases hbytes : r.vertexBytes with
    | nil => simp [uploadVertices, hbytes]
    | cons => cases answer <;> simp [uploadVertices, hbytes]

theorem upload_ok : (r.upload gpu used io).1 = !r.fails used io := by
  unfold upload fails
  rcases r.uploadAtlas_cases gpu used io.atlas with ⟨hc, h⟩ | ⟨hc, hr, h⟩ | ⟨hc, hr, ha, h⟩ |
    ⟨hc, hr, ha, h⟩
  all_goals
    rw [h]
    dsimp only
    rcases uploadVertices_cases _ _ _ io.vertices with ⟨hv, h⟩ | ⟨hk, hv, hio, h⟩ |
      ⟨hk, hv, hio, h⟩
  all_goals
    rw [h]
    simp_all

theorem upload_runtime :
    (r.upload gpu used io).2.1.atlasChanged = false ∧ (r.upload gpu used io).2.1.atlas = r.atlas ∧
      (r.upload gpu used io).2.1.vertexBytes = r.vertexBytes := by
  unfold upload
  rcases r.uploadAtlas_cases gpu used io.atlas with ⟨hc, h⟩ | ⟨-, -, h⟩ | ⟨-, -, -, h⟩ |
    ⟨-, -, -, h⟩
  all_goals rw [h]
  · exact ⟨hc, rfl, rfl⟩
  all_goals exact ⟨rfl, rfl, rfl⟩

/-- Where no upload failed, a changed atlas and the vertices are on the GPU. -/
theorem upload_gpu (hok : (r.upload gpu used io).1 = true) :
    (r.upload gpu used io).2.2.1.atlas =
        (if r.atlasChanged then some r.atlas.pixels else gpu.atlas) ∧
      (r.vertexBytes ≠ [] → (r.upload gpu used io).2.2.1.vertices = some r.vertexBytes) := by
  unfold upload at hok ⊢
  rcases r.uploadAtlas_cases gpu used io.atlas with ⟨hc, h⟩ | ⟨hc, hr, h⟩ | ⟨hc, hr, ha, h⟩ |
    ⟨hc, hr, ha, h⟩
  all_goals
    rw [h] at hok ⊢
    dsimp only at hok ⊢
    rcases uploadVertices_cases _ _ _ io.vertices with ⟨hv, h⟩ | ⟨hk, hv, hio, h⟩ |
      ⟨hk, hv, hio, h⟩
  all_goals
    rw [h] at hok ⊢
    simp_all

theorem upload_used :
    (r.upload gpu used io).2.2.2 ≤ used ∨
      (r.upload gpu used io).2.2.2 = used + atlasBytes ∧ r.atlasChanged = true ∧
        r.budgetCounted = false ∧ r.refused used = false ∧ io.atlas = .ok := by
  unfold upload
  rcases r.uploadAtlas_cases gpu used io.atlas with ⟨hc, h⟩ | ⟨hc, hr, h⟩ | ⟨hc, hr, ha, h⟩ |
    ⟨hc, hr, ha, h⟩
  all_goals
    rw [h]
    dsimp only
  · exact .inl le_rfl
  · exact .inl le_rfl
  · cases hcounted : r.budgetCounted with
    | true => exact .inl le_rfl
    | false => exact .inr ⟨rfl, hc, rfl, hr, ha⟩
  · refine .inl ?_
    split <;> omega

end Uploads

end TextLayerRuntime

namespace Layer

/-- The runtime of a layer after the refresh, and whether the pass goes on. -/
def refreshed (layer : Layer) (text : TextState) (io : PassIo) : Bool × TextLayerRuntime :=
  (layer.runtime.getD .default).refresh (io.resolve (text.font.getD "")) text.pointsizePx io.clock

/-- The layout of the text leaves a glyph out because of the rate limit. -/
def rateLimited (layer : Layer) (text : TextState) (io : PassIo) : Bool :=
  (layer.refreshed text io).2.rateLimited text (io.resolve (text.font.getD "")) io.clock

/-- The runtime of a layer with the new layout of its text. -/
def relaid (layer : Layer) (text : TextState) (io : PassIo) : TextLayerRuntime :=
  ((layer.refreshed text io).2.relayout text (io.resolve (text.font.getD "")) io.clock).2.1

/-- The condition on a pass over a layer.  When it goes on, no glyph is left out
because of the rate limit; on a layer that is not drawn any more the uploads
fail again; and an atlas that is counted fits beside the images. -/
def Steady (imageBytes : Nat) (layer : Layer) (text : TextState) (used : Nat) (io : PassIo) :
    Prop :=
  (layer.refreshed text io).1 = true →
    layer.rateLimited text io = false ∧
    (layer.textureOk = false → (layer.relaid text io).uploads = true →
      (layer.relaid text io).fails used io = true) ∧
    ((layer.relaid text io).atlasChanged = true → (layer.relaid text io).budgetCounted = false →
      (layer.relaid text io).refused used = false → io.atlas = .ok →
      imageBytes + used + atlasBytes ≤ maxTotalTextureBytes)

instance (imageBytes : Nat) (layer : Layer) (text : TextState) (used : Nat) (io : PassIo) :
    Decidable (layer.Steady imageBytes text used io) :=
  inferInstanceAs (Decidable (_ → _))

/-- What holds of a layer between the calls. -/
structure Consistent (layer : Layer) : Prop where
  unsynced : layer.runtime = none → ∀ text ∈ layer.text, text.vertexCount = 0
  counted : ∀ text ∈ layer.text, ∀ r ∈ layer.runtime, text.vertexCount = r.vertexBytes.length
  current : layer.textureOk = true → ∀ r ∈ layer.runtime, r.Current layer.gpu
  retried : layer.leftOut = true → ∃ text, layer.pending = some text
  suppressed : layer.uploaded = some true → layer.textureOk = true

theorem Consistent.write {layer : Layer} (h : layer.Consistent) (w : Write) :
    (layer.write w).Consistent := by
  have hcount : ∀ text : TextState, (text.write w).vertexCount = text.vertexCount := by
    intro text
    cases w <;> rfl
  have hdirty : ∀ text : TextState, text.dirty = true → (text.write w).dirty = true := by
    intro text hdirty
    cases w <;> first | rfl | exact hdirty
  cases w with
  | visible value => exact ⟨h.unsynced, h.counted, h.current, h.retried, h.suppressed⟩
  | _ =>
    refine ⟨fun hnone text htext => ?_, fun text htext r hr => ?_, h.current, fun hout => ?_,
      h.suppressed⟩
    · obtain ⟨old, hold, rfl⟩ := Option.mem_map.mp htext
      exact (hcount old).trans (h.unsynced hnone old hold)
    · obtain ⟨old, hold, rfl⟩ := Option.mem_map.mp htext
      exact (hcount old).trans (h.counted old hold r hr)
    · obtain ⟨old, hold⟩ := h.retried hout
      obtain ⟨hold, hdirtyOld⟩ := Option.filter_eq_some_iff.mp hold
      refine ⟨_, Option.filter_eq_some_iff.mpr ⟨?_, hdirty old hdirtyOld⟩⟩
      show Option.map _ layer.text = _
      rw [hold]
      rfl

/-- A layer after the call: it is not drawn any more where an upload failed. -/
def suppress (ok : Bool) (layer : Layer) : Layer :=
  if ok then layer else { layer with textureOk := false }

/-- What a pass that goes on leaves. -/
theorem sync_done {layer : Layer} {text : TextState} {io : PassIo} (used : Nat)
    (h : (layer.refreshed text io).1 = true) :
    ∃ vertexCount, vertexCount = (layer.relaid text io).vertexBytes.length ∧
      layer.sync text used io =
        (((layer.relaid text io).upload layer.gpu used io).1,
          { layer with
            text := some { text with dirty := false, vertexCount := vertexCount }
            runtime := some ((layer.relaid text io).upload layer.gpu used io).2.1
            gpu := ((layer.relaid text io).upload layer.gpu used io).2.2.1
            leftOut := layer.rateLimited text io
            uploaded :=
              if (layer.relaid text io).uploads then
                some ((layer.relaid text io).upload layer.gpu used io).1
              else layer.uploaded },
          ((layer.relaid text io).upload layer.gpu used io).2.2.2) := by
  refine ⟨_, TextLayerRuntime.relayout_vertexCount .., ?_⟩
  unfold rateLimited
  rw [← TextLayerRuntime.relayout_atlasRateLimited]
  unfold relaid
  unfold refreshed at h ⊢
  unfold sync
  dsimp only
  generalize (layer.runtime.getD .default).refresh _ _ _ = refreshed at h ⊢
  obtain ⟨go, r⟩ := refreshed
  subst h
  rfl

/-- What a pass that stops at the refresh leaves. -/
theorem sync_denied {layer : Layer} {text : TextState} {used : Nat} {io : PassIo}
    (h : (layer.refreshed text io).1 = false) :
    layer.sync text used io =
      (true, { layer with runtime := some (layer.refreshed text io).2, leftOut := true }, used) := by
  unfold refreshed at h ⊢
  unfold sync
  dsimp only
  generalize (layer.runtime.getD .default).refresh _ _ _ = refreshed at h ⊢
  obtain ⟨go, r⟩ := refreshed
  subst h
  rfl

/-- The atlas that a pass goes on with is the old one on the GPU, or is uploaded
again. -/
theorem relaid_current {layer : Layer} {text : TextState} {io : PassIo} (h : layer.Consistent)
    (hgo : (layer.refreshed text io).1 = true) (hlimit : layer.rateLimited text io = false)
    (hok : layer.textureOk = true) (hold : (layer.relaid text io).atlasChanged = false) :
    layer.gpu.atlas = some (layer.relaid text io).atlas.pixels := by
  obtain ⟨hsame, hatlas⟩ := TextLayerRuntime.relayout_unchanged _ _ _ _ hlimit hold
  rcases TextLayerRuntime.refresh_done hgo with ⟨hr, hscale⟩ | hchanged
  · cases hruntime : layer.runtime with
    | none =>
      rw [hruntime] at hscale
      have hmin : TextLayerRuntime.default.scale < minFontPx := by
        norm_num [minFontPx, TextLayerRuntime.default]
      exact absurd hscale (ne_of_lt (lt_of_lt_of_le hmin text.pointsizePx.2.1))
    | some r =>
      rw [hruntime, Option.getD_some] at hr
      have hcurrent := (h.current hok r hruntime).atlas
      rw [hcurrent]
      unfold relaid
      rw [hatlas]
      unfold refreshed
      rw [hruntime, Option.getD_some, hr]
  · exact absurd (hsame.symm.trans hchanged) (by decide)

/-- **A pass keeps the layers consistent.** -/
theorem Consistent.sync {layer : Layer} {text : TextState} {imageBytes used : Nat} {io : PassIo}
    (h : layer.Consistent) (hpending : layer.pending = some text)
    (hsteady : layer.Steady imageBytes text used io) :
    ((layer.sync text used io).2.1.suppress (layer.sync text used io).1).Consistent := by
  cases hgo : (layer.refreshed text io).1 with
  | false =>
    rw [sync_denied hgo]
    cases hruntime : layer.runtime with
    | none =>
      unfold refreshed at hgo
      rw [hruntime, Option.getD_none, TextLayerRuntime.refresh_default] at hgo
      cases hgo
    | some r =>
      unfold refreshed at hgo ⊢
      rw [hruntime, Option.getD_some] at hgo ⊢
      obtain ⟨atlas, hpixels, hr⟩ := TextLayerRuntime.refresh_denied hgo
      rw [hr]
      refine ⟨nofun, fun text htext s hs => ?_, fun hok s hs => ?_, fun _ => ⟨text, hpending⟩,
        h.suppressed⟩
      · cases hs
        exact h.counted text htext r hruntime
      · cases hs
        have hcurrent := h.current hok r hruntime
        exact ⟨hcurrent.atlasChanged, hcurrent.atlas.trans (congrArg some hpixels.symm),
          hcurrent.vertices⟩
  | true =>
    obtain ⟨hlimit, hagain, -⟩ := hsteady hgo
    obtain ⟨vertexCount, hcount, hsync⟩ := sync_done used hgo
    obtain ⟨hunchanged, hatlas, hbytes⟩ := (layer.relaid text io).upload_runtime layer.gpu used io
    have hfails := (layer.relaid text io).upload_ok layer.gpu used io
    have hgpu := (layer.relaid text io).upload_gpu layer.gpu used io
    rw [hsync]
    generalize (layer.relaid text io).upload layer.gpu used io = uploaded at *
    obtain ⟨ok, r, gpu, used'⟩ := uploaded
    dsimp only at hunchanged hatlas hbytes hfails hgpu ⊢
    cases ok with
    | false =>
      refine ⟨nofun, fun text htext s hs => ?_, nofun, fun hout => ?_, fun hup => ?_⟩
      · cases htext
        cases hs
        rw [hbytes]
        exact hcount
      · cases hlimit.symm.trans hout
      · have hfailed : (layer.relaid text io).fails used io = true := by
          simpa using hfails
        simp [TextLayerRuntime.uploads_of_fails hfailed, Layer.suppress] at hup
    | true =>
      refine ⟨nofun, fun text htext s hs => ?_, fun hok s hs => ?_, fun hout => ?_, fun hup => ?_⟩
      · cases htext
        cases hs
        rw [hbytes]
        exact hcount
      · cases hs
        obtain ⟨hnew, hvertices⟩ := hgpu rfl
        refine ⟨hunchanged, hnew.trans ?_, fun hne => ?_⟩
        · rw [hatlas]
          split
          next => rfl
          next hold => exact relaid_current h hgo hlimit hok (Bool.eq_false_iff.mpr hold)
        · rw [hbytes] at hne ⊢
          exact hvertices hne
      · cases hlimit.symm.trans hout
      · show layer.textureOk = true
        cases htexture : layer.textureOk with
        | true => rfl
        | false =>
          cases huploads : (layer.relaid text io).uploads with
          | true =>
            rw [hagain htexture huploads] at hfails
            cases hfails
          | false =>
            have hold : layer.uploaded = some true := by
              simpa [Layer.suppress, huploads] using hup
            exact absurd (h.suppressed hold) (by simp [htexture])

theorem sync_used {layer : Layer} {text : TextState} {imageBytes used : Nat} {io : PassIo}
    (hsteady : layer.Steady imageBytes text used io)
    (hfits : imageBytes + used ≤ maxTotalTextureBytes) :
    imageBytes + (layer.sync text used io).2.2 ≤ maxTotalTextureBytes := by
  cases hgo : (layer.refreshed text io).1 with
  | false =>
    rw [sync_denied hgo]
    exact hfits
  | true =>
    obtain ⟨-, -, hroom⟩ := hsteady hgo
    obtain ⟨_, -, hsync⟩ := sync_done used hgo
    rw [hsync]
    dsimp only
    rcases (layer.relaid text io).upload_used layer.gpu used io with
      hle | ⟨hused, hchanged, hcounted, hrefused, hio⟩
    · omega
    · have := hroom hchanged hcounted hrefused hio
      omega

end Layer

/-! ## Whole runs -/

/-- The condition on a call: each pass it makes over a layer is steady. -/
def Steady (imageBytes : Nat) (io : Nat → PassIo) : Nat → List Layer → Nat → Prop
  | _, [], _ => True
  | i, layer :: layers, used =>
    match layer.pending with
    | none => Steady imageBytes io (i + 1) layers used
    | some text =>
      layer.Steady imageBytes text used (io i) ∧
        Steady imageBytes io (i + 1) layers (layer.sync text used (io i)).2.2

instance Steady.decidable (imageBytes : Nat) (io : Nat → PassIo) :
    ∀ (i : Nat) (layers : List Layer) (used : Nat), Decidable (Steady imageBytes io i layers used)
  | _, [], _ => inferInstanceAs (Decidable True)
  | i, layer :: layers, used =>
    match h : layer.pending with
    | none =>
      have := Steady.decidable imageBytes io (i + 1) layers used
      decidable_of_iff (Steady imageBytes io (i + 1) layers used) (by simp only [Steady, h])
    | some text =>
      have := Steady.decidable imageBytes io (i + 1) layers (layer.sync text used (io i)).2.2
      decidable_of_iff
        (layer.Steady imageBytes text used (io i) ∧
          Steady imageBytes io (i + 1) layers (layer.sync text used (io i)).2.2)
        (by simp only [Steady, h])

/-- The condition on a step: a call is steady, and a script writes anything. -/
def Scene.Steady (scene : Scene) (i : Input) : Prop :=
  match i with
  | .write _ _ => True
  | .sync io => Text.Steady scene.imageBytes io 0 scene.layers scene.atlasBytesUsed

instance (scene : Scene) : ∀ i : Input, Decidable (scene.Steady i)
  | .write _ _ => inferInstanceAs (Decidable True)
  | .sync io => Steady.decidable scene.imageBytes io 0 scene.layers scene.atlasBytesUsed

theorem le_of_mem_failed {io : Nat → PassIo} {i j : Nat} {layers : List Layer} {used : Nat}
    (h : j ∈ (syncAndUpload io i layers used).2.1) : i ≤ j := by
  induction layers generalizing i used with
  | nil => cases h
  | cons layer layers ih =>
    unfold syncAndUpload at h
    split at h
    next =>
      have := ih h
      omega
    next =>
      dsimp only at h
      split at h
      next =>
        have := ih h
        omega
      next =>
        rcases List.mem_cons.mp h with rfl | h
        · exact le_rfl
        · have := ih h
          omega

theorem suppress_cons_lt {failed : List Nat} {i j : Nat} (layers : List Layer) (h : j < i) :
    suppress (j :: failed) i layers = suppress failed i layers := by
  induction layers generalizing i with
  | nil => rfl
  | cons layer layers ih =>
    have hne : i ≠ j := by omega
    rw [suppress, suppress, ih (by omega)]
    simp [hne]

theorem suppress_step {failed : List Nat} {i : Nat} (ok : Bool) (layer : Layer)
    (layers : List Layer) (h : ∀ j ∈ failed, i < j) :
    suppress (if ok then failed else i :: failed) i (layer :: layers) =
      layer.suppress ok :: suppress failed (i + 1) layers := by
  have hfresh : i ∉ failed := fun hi => Nat.lt_irrefl i (h i hi)
  cases ok with
  | true => simp [suppress, Layer.suppress, hfresh]
  | false =>
    rw [if_neg Bool.false_ne_true, suppress, suppress_cons_lt layers (Nat.lt_succ_self i)]
    simp [Layer.suppress]

/-- A steady call keeps the layers consistent and the bytes within the budget. -/
theorem syncAndUpload_keeps {imageBytes i used : Nat} {io : Nat → PassIo} {layers : List Layer}
    (hlayers : ∀ layer ∈ layers, layer.Consistent)
    (hfits : imageBytes + used ≤ maxTotalTextureBytes)
    (hsteady : Steady imageBytes io i layers used) :
    (∀ layer ∈ suppress (syncAndUpload io i layers used).2.1 i (syncAndUpload io i layers used).1,
      layer.Consistent) ∧
    imageBytes + (syncAndUpload io i layers used).2.2 ≤ maxTotalTextureBytes := by
  induction layers generalizing i used with
  | nil =>
    simp only [syncAndUpload, suppress]
    exact ⟨fun layer hlayer => absurd hlayer List.not_mem_nil, hfits⟩
  | cons layer layers ih =>
    obtain ⟨hlayer, hrest⟩ := List.forall_mem_cons.mp hlayers
    cases hpending : layer.pending with
    | none =>
      simp only [Steady, hpending] at hsteady
      obtain ⟨hkept, hfits⟩ := ih hrest hfits hsteady
      simp only [syncAndUpload, hpending]
      have hfresh : i ∉ (syncAndUpload io (i + 1) layers used).2.1 := fun hi => by
        have := le_of_mem_failed hi
        omega
      rw [suppress, if_neg hfresh]
      exact ⟨List.forall_mem_cons.mpr ⟨hlayer, hkept⟩, hfits⟩
    | some text =>
      simp only [Steady, hpending] at hsteady
      obtain ⟨hkept, hfits⟩ := ih hrest (Layer.sync_used hsteady.1 hfits) hsteady.2
      simp only [syncAndUpload, hpending]
      rw [suppress_step _ _ _ fun j hj => le_of_mem_failed hj]
      exact ⟨List.forall_mem_cons.mpr ⟨hlayer.sync hpending hsteady.1, hkept⟩, hfits⟩

/-- What holds of a scene between its steps. -/
structure Scene.Consistent (scene : Scene) : Prop where
  layers : ∀ layer ∈ scene.layers, layer.Consistent
  budget : scene.imageBytes + scene.atlasBytesUsed ≤ maxTotalTextureBytes

theorem Scene.Consistent.step {scene : Scene} {i : Input} (h : scene.Consistent)
    (hsteady : scene.Steady i) : (scene.step i).Consistent := by
  cases i with
  | write index w =>
    refine ⟨fun layer hlayer => ?_, h.budget⟩
    obtain ⟨j, hj⟩ := List.getElem?_of_mem hlayer
    dsimp only [Scene.step] at hj
    rw [List.getElem?_modify] at hj
    obtain ⟨old, hold, hwritten⟩ := Option.map_eq_some_iff.mp hj
    have hkept := h.layers old (List.mem_of_getElem? hold)
    split at hwritten
    next => exact hwritten ▸ hkept.write w
    next => exact hwritten ▸ hkept
  | sync io =>
    obtain ⟨hlayers, hbudget⟩ := syncAndUpload_keeps h.layers h.budget hsteady
    exact ⟨hlayers, hbudget⟩

/-- A scene that was just loaded. -/
structure Scene.Loaded (scene : Scene) : Prop where
  images : scene.imageBytes ≤ maxTotalTextureBytes
  atlases : scene.atlasBytesUsed = 0
  layers : ∀ layer ∈ scene.layers, layer.runtime = none ∧
    (∀ text ∈ layer.text, text.vertexCount = 0) ∧ layer.leftOut = false ∧ layer.uploaded = none

theorem Scene.Loaded.consistent {scene : Scene} (h : scene.Loaded) : scene.Consistent := by
  refine ⟨fun layer hlayer => ?_, ?_⟩
  · obtain ⟨hruntime, htext, hout, hup⟩ := h.layers layer hlayer
    refine ⟨fun _ => htext, fun _ _ r hr => ?_, fun _ r hr => ?_, fun h => ?_, fun h => ?_⟩
    · cases hruntime.symm.trans hr
    · cases hruntime.symm.trans hr
    · cases hout.symm.trans h
    · cases hup.symm.trans h
  · rw [h.atlases]
    exact h.images

/-! ## The agreement -/

/-- What is drawn of the text layers is what was last uploaded for them, what
the rate limit left out is tried again, a layer is suppressed only until its
uploads succeed, and images and atlases stay within the budget. -/
structure Scene.Agrees (scene : Scene) : Prop where
  drawn : ∀ draw ∈ frameDraws 0 scene.layers, ∀ vertexCount, draw.kind = .text vertexCount →
    ∃ layer r, scene.layers[draw.layerIndex]? = some layer ∧ layer.runtime = some r ∧
      layer.gpu.atlas = some r.atlas.pixels ∧ layer.gpu.vertices = some r.vertexBytes ∧
      vertexCount = r.vertexBytes.length
  retried : ∀ layer ∈ scene.layers, layer.leftOut = true → ∃ text, layer.pending = some text
  suppressed : ∀ layer ∈ scene.layers, layer.uploaded = some true → layer.textureOk = true
  budget : scene.imageBytes + scene.atlasBytesUsed ≤ maxTotalTextureBytes

theorem mem_frameDraws {i : Nat} {layers : List Layer} {draw : LayerDraw}
    (h : draw ∈ frameDraws i layers) :
    ∃ j layer, draw.layerIndex = i + j ∧ layers[j]? = some layer ∧
      layer.draw = some draw.kind := by
  induction layers generalizing i with
  | nil => cases h
  | cons layer layers ih =>
    unfold frameDraws at h
    split at h
    next kind hkind =>
      rcases List.mem_cons.mp h with rfl | h
      · exact ⟨0, layer, rfl, rfl, hkind⟩
      · obtain ⟨j, other, hindex, hother, hdraw⟩ := ih h
        exact ⟨j + 1, other, by omega, hother, hdraw⟩
    next =>
      obtain ⟨j, other, hindex, hother, hdraw⟩ := ih h
      exact ⟨j + 1, other, by omega, hother, hdraw⟩

theorem Layer.Consistent.drawn {layer : Layer} {vertexCount : Nat} (h : layer.Consistent)
    (hdraw : layer.draw = some (.text vertexCount)) :
    ∃ r, layer.runtime = some r ∧ layer.gpu.atlas = some r.atlas.pixels ∧
      layer.gpu.vertices = some r.vertexBytes ∧ vertexCount = r.vertexBytes.length := by
  unfold Layer.draw at hdraw
  split at hdraw
  next => cases hdraw
  next hshown =>
    have hok : layer.textureOk = true := by
      cases htexture : layer.textureOk with
      | true => rfl
      | false => simp [htexture] at hshown
    split at hdraw
    next text htext =>
      split at hdraw
      next hpositive =>
        cases hdraw
        cases hruntime : layer.runtime with
        | none => exact absurd (h.unsynced hruntime text htext) (by omega)
        | some r =>
          have hcount := h.counted text htext r hruntime
          have hne : r.vertexBytes ≠ [] := by
            intro hnil
            rw [hnil] at hcount
            exact absurd hcount (by simp; omega)
          have hcurrent := h.current hok r hruntime
          exact ⟨r, rfl, hcurrent.atlas, hcurrent.vertices hne, hcount⟩
      next => cases hdraw
    next => cases hdraw

theorem Scene.Consistent.agrees {scene : Scene} (h : scene.Consistent) : scene.Agrees := by
  refine ⟨fun draw hdraw vertexCount hkind => ?_, fun layer hlayer => (h.layers layer hlayer).retried,
    fun layer hlayer => (h.layers layer hlayer).suppressed, h.budget⟩
  obtain ⟨j, layer, hindex, hlayer, hdrawn⟩ := mem_frameDraws hdraw
  rw [hkind] at hdrawn
  obtain ⟨r, hr, hatlas, hvertices, hcount⟩ :=
    (h.layers layer (List.mem_of_getElem? hlayer)).drawn hdrawn
  rw [Nat.zero_add] at hindex
  exact ⟨layer, r, hindex ▸ hlayer, hr, hatlas, hvertices, hcount⟩

/-- **Text layers agree with the GPU.** In every run from a loaded scene whose
calls are steady, every state has the agreement. -/
theorem run_agrees {scene : Scene} (hloaded : scene.Loaded) {is : List Input}
    (hsteady : Along Scene.step Scene.Steady scene is) : (run Scene.step scene is).Agrees :=
  (invariant_run (fun _ _ h hC => Scene.Consistent.step h hC) hloaded.consistent hsteady).agrees

/-- A font of large square glyphs, one for each character. -/
def squares : Font where
  id := 1
  glyphIndex := Char.toNat
  advance := fun _ => 520
  scaleForPixelHeight := fun px => px / 512
  glyphBitmapBox := fun _ _ => ⟨0, -520, 520, 0⟩
  renderGlyph := fun _ _ => some fun _ => 255

/-- A scene with one text, when it was just loaded. -/
def oneText (text : String) (imageBytes : Nat) : Scene where
  layers := [{
    visible := true
    text := some ⟨text.toList, none, ⟨512, by norm_num [minFontPx, maxFontPx]⟩, .left, .top, true, 0⟩
    runtime := none
    textureOk := true
    gpu := ⟨none, none⟩
    leftOut := false
    uploaded := none }]
  imageBytes := imageBytes
  atlasBytesUsed := 0

/-- A call at time zero whose atlas uploads end like this. -/
def callEnding (answer : Upload) : Input :=
  .sync fun _ => ⟨fun _ => some squares, fun _ => 0, answer, .ok⟩

theorem oneText_loaded {text : String} {imageBytes : Nat} (h : imageBytes ≤ maxTotalTextureBytes) :
    (oneText text imageBytes).Loaded := by
  refine ⟨h, rfl, fun layer hlayer => ?_⟩
  obtain rfl := List.mem_singleton.mp hlayer
  refine ⟨rfl, fun text htext => ?_, rfl, rfl⟩
  cases htext
  rfl

theorem run_agrees_oneText :
    (run Scene.step (oneText "a" 0) [callEnding .ok, .write 0 .color, callEnding .failed]).Agrees :=
  run_agrees (oneText_loaded (by decide)) (by decide +kernel)

/-- A layer whose second upload succeeds stays suppressed, a glyph that the rate
limit left out is not tried again, and an atlas is counted on top of images that
fill the budget. -/
theorem loaded_disagrees :
    ¬(run Scene.step (oneText "a" 0)
        [callEnding .failed, .write 0 .color, callEnding .ok]).Agrees ∧
      ¬(run Scene.step (oneText "abcdefghij" 0)
        [callEnding .ok, .write 0 .color, callEnding .ok]).Agrees ∧
      ¬(run Scene.step (oneText "a" maxTotalTextureBytes) [callEnding .ok]).Agrees := by
  refine ⟨fun h => ?_, fun h => ?_, fun h => ?_⟩
  · exact absurd h.suppressed (by decide +kernel)
  · have hpending : ∀ layer ∈ (run Scene.step (oneText "abcdefghij" 0)
        [callEnding .ok, .write 0 .color, callEnding .ok]).layers,
        layer.leftOut = true → layer.pending.isSome = true := fun layer hlayer hout =>
      Option.isSome_iff_exists.mpr (h.retried layer hlayer hout)
    exact absurd hpending (by decide +kernel)
  · exact absurd h.budget (by decide +kernel)

end Kwe.Text

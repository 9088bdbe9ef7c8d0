import Kwe.Text.Packing

/-!
The calls that an atlas sees: what it holds after any of them, how often it is rebuilt, and
whether a sync tells that it changed something.

* `History.Sound.step`: what one call keeps;
* `place_altered_iff`: what is placed before a glyph without room;
* `atlas_invariant`: every run of calls;
* `sync_alters_silently`: a sync that draws a glyph and reports no change.
-/

namespace Kwe.Text

open Foundation.Limiter Foundation.Runs

/-! ## Calls -/

/-- A call, with the times it reads: for whether a rebuild is allowed, and of the rebuild. -/
inductive Call
  | sync (glyphs : List Nat) (scale : ℚ) (checked rebuilt : Nat)
  | clear
  | clearBudgeted (checked rebuilt : Nat)
  deriving DecidableEq, Repr

/-- The two readings of a call. -/
def readings (checked rebuilt : Nat) : Clock := fun i => if i % 2 = 0 then checked else rebuilt

/-- The times of the calls do not decrease. -/
def Timely : Nat → List Call → Prop
  | _, [] => True
  | now, .clear :: calls => Timely now calls
  | now, .sync _ _ checked rebuilt :: calls =>
    (now ≤ checked ∧ checked ≤ rebuilt) ∧ Timely rebuilt calls
  | now, .clearBudgeted checked rebuilt :: calls =>
    (now ≤ checked ∧ checked ≤ rebuilt) ∧ Timely rebuilt calls

/-- An atlas with its past: the scales of the syncs since it was last cleared, and the times of
all its budgeted clears and repacks. -/
structure History where
  atlas : GlyphAtlas
  scales : List ℚ
  rebuilds : List Nat

def History.new : History := ⟨.new, [], []⟩

section Font

variable (font : Font)

def History.step (s : History) : Call → History
  | .sync glyphs scale checked rebuilt =>
    let a := (s.atlas.sync font scale glyphs (readings checked rebuilt)).2.2
    if s.atlas.overflows font scale glyphs ∧ s.atlas.rebuildAllowed checked then
      ⟨a, [scale], s.rebuilds ++ [rebuilt]⟩
    else ⟨a, s.scales ++ [scale], s.rebuilds⟩
  | .clear => ⟨s.atlas.clear, [], s.rebuilds⟩
  | .clearBudgeted checked rebuilt =>
    let a := (s.atlas.clearBudgeted (readings checked rebuilt)).2
    if s.atlas.rebuildAllowed checked then ⟨a, [], s.rebuilds ++ [rebuilt]⟩
    else ⟨a, s.scales, s.rebuilds⟩

/-- A sync that altered a pixel or an entry tells so. -/
def Reports (s : History) : Call → Prop
  | .sync glyphs scale checked rebuilt =>
    let synced := s.atlas.sync font scale glyphs (readings checked rebuilt)
    synced.2.2.pixels ≠ s.atlas.pixels ∨ synced.2.2.entries ≠ s.atlas.entries →
      synced.2.1 = true
  | _ => True

/-! ## What is altered without room -/

def bitmapWidth (scale : ℚ) (glyph : Nat) : Nat :=
  ((font.glyphBitmapBox glyph scale).ix1 - (font.glyphBitmapBox glyph scale).ix0).toNat

def bitmapHeight (scale : ℚ) (glyph : Nat) : Nat :=
  ((font.glyphBitmapBox glyph scale).iy1 - (font.glyphBitmapBox glyph scale).iy0).toNat

/-- The glyph is passed over: its bitmap is too large or not rendered. -/
def skips (scale : ℚ) (glyph : Nat) : Bool :=
  let bw := bitmapWidth font scale glyph
  let bh := bitmapHeight font scale glyph
  !(bw = 0 ∨ bh = 0) && ((maxGlyphBitmapDim < bw ∨ maxGlyphBitmapDim < bh) ||
    (font.renderGlyph glyph scale).isNone)

/-- The glyph has no bitmap, or there is room for it. -/
def fits (scale : ℚ) (rows : List ShelfRow) (glyph : Nat) : Bool :=
  let bw := bitmapWidth font scale glyph
  let bh := bitmapHeight font scale glyph
  (bw = 0 ∨ bh = 0) || (GlyphAtlas.pack rows bw bh).isSome

/-- A sync that is rate limited, of which the first missing glyph that is not passed over still
has room. -/
def AltersSilently (s : History) : Call → Prop
  | .sync glyphs scale checked rebuilt =>
    s.atlas.rateLimited font scale glyphs (readings checked rebuilt) = true ∧
      ((s.atlas.needed glyphs).find? fun glyph => !skips font scale glyph).any
        (fits font scale s.atlas.rows) = true
  | _ => False

end Font

variable {font : Font} {scale : ℚ}

theorem place_entries {glyph : Nat} (glyphs : List Nat) (a : GlyphAtlas) (diag : TextDiag)
    (h : (a.entries glyph).isSome = true) :
    ((GlyphAtlas.place font scale glyphs a diag).2.1.entries glyph).isSome = true := by
  have hinsert : ∀ (a : GlyphAtlas) g rect, (a.entries glyph).isSome = true →
      ((a.insert g rect).entries glyph).isSome = true := by
    intro a g rect ha
    simp only [GlyphAtlas.insert]
    split
    · rfl
    · exact ha
  fun_induction GlyphAtlas.place font scale glyphs a diag with
  | case1 => exact h
  | case2 _ _ _ _ _ ih => exact ih h
  | case3 _ _ _ _ _ _ _ _ _ ih => exact ih (hinsert _ _ _ h)
  | case4 _ _ _ _ _ _ _ _ _ _ ih => exact ih h
  | case5 _ _ _ _ _ _ _ _ _ _ _ ih => exact ih h
  | case6 => exact h
  | case7 _ _ _ _ _ _ _ _ _ _ _ _ _ _ _ _ _ ih => exact ih (hinsert _ _ _ h)

/-- An entry that was missing before. -/
theorem altered_of_insert {a b : GlyphAtlas} {glyph : Nat}
    (hmissing : ¬ (a.entries glyph).isSome = true) (h : (b.entries glyph).isSome = true) :
    b.pixels ≠ a.pixels ∨ b.entries ≠ a.entries := by
  right
  intro heq
  rw [heq] at h
  exact hmissing h

/-- **Partial placement.**  Before a glyph without room something is placed, exactly when the
first glyph that is not passed over has room. -/
theorem place_altered_iff {glyphs : List Nat} {a : GlyphAtlas} {diag : TextDiag}
    (hmissing : ∀ glyph ∈ glyphs, ¬ (a.entries glyph).isSome = true)
    (hroom : (GlyphAtlas.place font scale glyphs a diag).1 = false) :
    ((GlyphAtlas.place font scale glyphs a diag).2.1.pixels ≠ a.pixels ∨
      (GlyphAtlas.place font scale glyphs a diag).2.1.entries ≠ a.entries) ↔
    (glyphs.find? fun glyph => !skips font scale glyph).any (fits font scale a.rows) = true := by
  have hself : ∀ (a : GlyphAtlas) glyph rect, ((a.insert glyph rect).entries glyph).isSome = true :=
    fun a glyph rect => by simp [GlyphAtlas.insert]
  induction glyphs generalizing diag with
  | nil =>
    rw [GlyphAtlas.place] at hroom
    cases hroom
  | cons glyph glyphs ih =>
    obtain ⟨hglyph, hrest⟩ := List.forall_mem_cons.mp hmissing
    rw [GlyphAtlas.place, if_neg hglyph] at hroom ⊢
    dsimp only at hroom ⊢
    rw [List.find?_cons]
    generalize hw : ((font.glyphBitmapBox glyph scale).ix1 -
      (font.glyphBitmapBox glyph scale).ix0).toNat = bw at hroom ⊢
    generalize hh : ((font.glyphBitmapBox glyph scale).iy1 -
      (font.glyphBitmapBox glyph scale).iy0).toNat = bh at hroom ⊢
    have hwidth : bitmapWidth font scale glyph = bw := hw
    have hheight : bitmapHeight font scale glyph = bh := hh
    by_cases hbare : bw = 0 ∨ bh = 0
    · rw [if_pos hbare]
      have hskips : skips font scale glyph = false := by simp [skips, hwidth, hheight, hbare]
      have hfits : fits font scale a.rows glyph = true := by simp [fits, hwidth, hheight, hbare]
      refine iff_of_true (altered_of_insert hglyph (place_entries _ _ _ (hself _ _ _))) ?_
      rw [hskips]
      exact hfits
    · rw [if_neg hbare] at hroom ⊢
      split
      next hlarge =>
        rw [if_pos hlarge] at hroom
        have hskips : skips font scale glyph = true := by
          simp [skips, hwidth, hheight, hbare, hlarge]
        rw [hskips]
        exact ih hrest hroom
      next hsmall =>
        rw [if_neg hsmall] at hroom
        cases hrender : font.renderGlyph glyph scale with
        | none =>
          have hskips : skips font scale glyph = true := by
            simp [skips, hwidth, hheight, hbare, hrender]
          rw [hrender] at hroom
          rw [hskips]
          exact ih hrest hroom
        | some coverage =>
          have hskips : skips font scale glyph = false := by
            simp [skips, hwidth, hheight, hsmall, hrender]
          rw [hrender] at hroom
          rw [hskips]
          dsimp only at hroom ⊢
          cases hpack : GlyphAtlas.pack a.rows bw bh with
          | none => simp [fits, hwidth, hheight, hbare, hpack]
          | some packed =>
            refine iff_of_true (altered_of_insert hglyph (place_entries _ _ _ (hself _ _ _))) ?_
            simp [fits, hwidth, hheight, hpack]

theorem mem_needed {a : GlyphAtlas} {glyphs : List Nat} {glyph : Nat}
    (h : glyph ∈ a.needed glyphs) : ¬ (a.entries glyph).isSome = true := by
  have hmem := List.mem_filter.mp (List.mem_eraseDups.mp h)
  simp [Option.isNone_iff_eq_none.mp hmem.2]

/-! ## Syncs -/

/-- How a sync ends. -/
theorem sync_cases (font : Font) (a : GlyphAtlas) (glyphs : List Nat) (scale : ℚ) (checked rebuilt : Nat) :
    let placed := (GlyphAtlas.place font scale (a.needed glyphs) a .default).2.1
    let synced := a.sync font scale glyphs (readings checked rebuilt)
    (a.overflows font scale glyphs = false ∧ synced.2.2 = placed ∧
      (synced.2.1 = true ∨ placed = a)) ∨
    (a.overflows font scale glyphs = true ∧ a.rebuildAllowed checked = true ∧
      synced.2.1 = true ∧ ∃ diag, synced.2.2 = (GlyphAtlas.place font scale glyphs.eraseDups
        { a.forget checked with rebuildTimes := (a.forget checked).rebuildTimes ++ [rebuilt] }.clear
        diag).2.1) ∨
    (a.overflows font scale glyphs = true ∧ a.rebuildAllowed checked = false ∧
      synced.2.1 = false ∧ synced.2.2 = placed.forget checked) := by
  have htimes := (GlyphAtlas.place_keeps font scale (a.needed glyphs) a .default).1
  unfold GlyphAtlas.sync GlyphAtlas.overflows
  by_cases hempty : (a.needed glyphs).isEmpty = true
  · rw [if_pos hempty, List.isEmpty_iff.mp hempty]
    exact .inl ⟨rfl, rfl, .inr rfl⟩
  · rw [if_neg hempty]
    rcases hplaced : GlyphAtlas.place font scale (a.needed glyphs) a .default with ⟨room, b, diag⟩
    rw [hplaced] at htimes
    dsimp only at htimes
    cases room with
    | true => exact .inl ⟨rfl, rfl, .inl rfl⟩
    | false =>
      have hallowed : b.rebuildAllowed checked = a.rebuildAllowed checked :=
        GlyphAtlas.rebuildAllowed_congr htimes checked
      have hforget : (b.forget checked).rebuildTimes = (a.forget checked).rebuildTimes := by
        simp [GlyphAtlas.forget, GlyphAtlas.recent, htimes]
      right
      have hchecked : readings checked rebuilt 2 = checked := rfl
      have hrebuilt : readings checked rebuilt 3 = rebuilt := rfl
      dsimp only
      rw [hchecked, hrebuilt, hallowed]
      cases a.rebuildAllowed checked with
      | true =>
        refine .inl ⟨rfl, rfl, rfl, diag, ?_⟩
        simp [GlyphAtlas.clear, hforget]
      | false => exact .inr ⟨rfl, rfl, rfl, rfl⟩

/-- **The flag.**  A sync that alters something tells so, unless it alters it silently. -/
theorem reports_iff (s : History) (call : Call) :
    Reports font s call ↔ ¬ AltersSilently font s call := by
  cases call with
  | clear => exact iff_of_true trivial id
  | clearBudgeted checked rebuilt => exact iff_of_true trivial id
  | sync glyphs scale checked rebuilt =>
    simp only [Reports, AltersSilently, GlyphAtlas.rateLimited]
    rcases sync_cases font s.atlas glyphs scale checked rebuilt with
      ⟨hroom, hsynced, hflag⟩ | ⟨-, hallowed, hflag, -⟩ | ⟨hfull, hallowed, hflag, hsynced⟩
    · rw [hroom]
      refine iff_of_true (fun haltered => ?_) (by simp)
      rcases hflag with hflag | hsame
      · exact hflag
      · rw [hsynced, hsame] at haltered
        simp at haltered
    · refine iff_of_true (fun _ => hflag) ?_
      simp [readings, hallowed]
    · have hplace : (GlyphAtlas.place font scale (s.atlas.needed glyphs) s.atlas .default).1 =
          false := by simpa [GlyphAtlas.overflows] using hfull
      have haltered := place_altered_iff (fun _ => mem_needed) hplace
      rw [← haltered, hflag, hsynced]
      simp [readings, hfull, hallowed, GlyphAtlas.forget]

/-! ## Runs -/

/-- What holds of an atlas and its past at `now`. -/
structure History.Sound (font : Font) (now : Nat) (s : History) : Prop where
  atlas : Kwe.Text.Sound font s.scales s.atlas
  limited : Limited second atlasRebuildsPerSecond s.rebuilds
  remembered : Remembers second now s.rebuilds s.atlas.rebuildTimes

theorem Sound.mono {scales scales' : List ℚ} {a : GlyphAtlas} (h : Sound font scales a)
    (hsub : scales ⊆ scales') : Sound font scales' a where
  apart := h.apart
  inside := h.inside
  drawn glyph rect hrect hw hh :=
    have ⟨scale, hscale, hshows⟩ := h.drawn glyph rect hrect hw hh
    ⟨scale, hsub hscale, hshows⟩
  stacked := h.stacked
  taken := h.taken

/-- The times of the rebuilds are no part of what the atlas holds. -/
theorem Sound.times {scales : List ℚ} {a : GlyphAtlas} (h : Sound font scales a)
    (times : List Nat) : Sound font scales { a with rebuildTimes := times } :=
  ⟨⟨h.apart, h.inside, h.drawn⟩, h.stacked, h.taken⟩

section Step

variable {s : History} {now checked rebuilt : Nat}

theorem History.Sound.recent_lt (h : s.Sound font now) (hle : now ≤ checked)
    (hallowed : s.atlas.rebuildAllowed checked = true) :
    (recent second checked s.rebuilds).length < atlasRebuildsPerSecond := by
  rw [← h.remembered checked hle]
  exact of_decide_eq_true hallowed

theorem History.Sound.rebuild (h : s.Sound font now) (hle : now ≤ checked) (hle' : checked ≤ rebuilt) :
    Remembers second rebuilt (s.rebuilds ++ [rebuilt])
      ((s.atlas.forget checked).rebuildTimes ++ [rebuilt]) :=
  ((h.remembered.forget hle).mono hle').push rebuilt

/-- **Step.**  What a call keeps, and the time it leaves. -/
theorem History.Sound.sync (h : s.Sound font now) (glyphs : List Nat) (scale : ℚ)
    (hle : now ≤ checked) (hle' : checked ≤ rebuilt) :
    (s.step font (.sync glyphs scale checked rebuilt)).Sound font rebuilt := by
  have hscale : scale ∈ s.scales ++ [scale] := List.mem_append_right _ List.mem_cons_self
  have hplaced := place_sound hscale (s.atlas.needed glyphs) .default
    (h.atlas.mono (List.subset_append_left _ _))
  have htimes := (GlyphAtlas.place_keeps font scale (s.atlas.needed glyphs) s.atlas .default).1
  unfold History.step
  dsimp only
  rcases sync_cases font s.atlas glyphs scale checked rebuilt with
    ⟨hroom, hsynced, -⟩ | ⟨hfull, hallowed, -, diag, hsynced⟩ | ⟨hfull, hallowed, -, hsynced⟩
  · rw [if_neg (by simp [hroom]), hsynced]
    refine ⟨hplaced, h.limited, ?_⟩
    dsimp only
    rw [htimes]
    exact h.remembered.mono (Nat.le_trans hle hle')
  · rw [if_pos ⟨hfull, hallowed⟩, hsynced]
    refine ⟨place_sound List.mem_cons_self _ _ (.empty rfl rfl),
      h.limited.push (h.recent_lt hle hallowed) hle', ?_⟩
    dsimp only
    rw [(GlyphAtlas.place_keeps ..).1]
    exact h.rebuild hle hle'
  · rw [if_neg (by simp [hallowed]), hsynced]
    refine ⟨hplaced.times _, h.limited, ?_⟩
    have hforget := (h.remembered.forget hle).mono hle'
    rw [← htimes] at hforget
    exact hforget

theorem History.Sound.clear (h : s.Sound font now) : (s.step font .clear).Sound font now :=
  ⟨.empty rfl rfl, h.limited, h.remembered⟩

theorem History.Sound.clearBudgeted (h : s.Sound font now) (hle : now ≤ checked)
    (hle' : checked ≤ rebuilt) :
    (s.step font (.clearBudgeted checked rebuilt)).Sound font rebuilt := by
  unfold History.step GlyphAtlas.clearBudgeted
  by_cases hallowed : s.atlas.rebuildAllowed checked = true
  · simp only [readings, Nat.zero_mod, if_true, hallowed]
    exact ⟨.empty rfl rfl, h.limited.push (h.recent_lt hle hallowed) hle', h.rebuild hle hle'⟩
  · simp only [readings, Nat.zero_mod, if_true, hallowed]
    exact ⟨h.atlas.times _, h.limited, (h.remembered.forget hle).mono hle'⟩

theorem History.Sound.run {calls : List Call} (h : s.Sound font now) (htimely : Timely now calls) :
    ∃ later, (Foundation.Runs.run (History.step font) s calls).Sound font later := by
  induction calls generalizing s now with
  | nil => exact ⟨now, h⟩
  | cons call calls ih =>
    cases call with
    | sync glyphs scale checked rebuilt =>
      obtain ⟨⟨hle, hle'⟩, hrest⟩ := htimely
      exact ih (h.sync glyphs scale hle hle') hrest
    | clear => exact ih h.clear htimely
    | clearBudgeted checked rebuilt =>
      obtain ⟨⟨hle, hle'⟩, hrest⟩ := htimely
      exact ih (h.clearBudgeted hle hle') hrest

end Step

theorem History.Sound.new (font : Font) : History.new.Sound font 0 :=
  ⟨.empty rfl rfl, .nil, .self⟩

/-- **The atlas.**  After any calls at times that do not decrease its slots lie apart in the
square and show their glyphs at a scale in use since it was last cleared, and it was rebuilt at
most so many times in any second; and all its syncs told that they altered it, exactly when none
of them altered it silently. -/
theorem atlas_invariant (font : Font) (calls : List Call) (h : Timely 0 calls) :
    (Holds font (run (History.step font) .new calls).scales
        (run (History.step font) .new calls).atlas ∧
      Limited second atlasRebuildsPerSecond (run (History.step font) .new calls).rebuilds) ∧
    (Along (History.step font) (Reports font) .new calls ↔
      Along (History.step font) (fun s call => ¬ AltersSilently font s call) .new calls) := by
  obtain ⟨later, hsound⟩ := (History.Sound.new font).run h
  refine ⟨⟨hsound.atlas.toHolds, hsound.limited⟩, ?_⟩
  have hsame : Reports font = fun s call => ¬ AltersSilently font s call := by
    funext s call
    exact propext (reports_iff s call)
  rw [hsame]

/-- A glyph is drawn, its atlas cleared, and another one drawn at a larger scale. -/
def clearedCalls : List Call := [.sync [1] 1 0 0, .clearBudgeted 5 6, .sync [2] 2 7 7]

theorem atlas_invariant_cleared :
    Timely 0 clearedCalls ∧
    (Holds squares (run (History.step squares) .new clearedCalls).scales
        (run (History.step squares) .new clearedCalls).atlas ∧
      Limited second atlasRebuildsPerSecond
        (run (History.step squares) .new clearedCalls).rebuilds) ∧
    (Along (History.step squares) (Reports squares) .new clearedCalls ↔
      Along (History.step squares) (fun s call => ¬ AltersSilently squares s call) .new
        clearedCalls) := by
  have htimely : Timely 0 clearedCalls := by simp [clearedCalls, Timely]
  exact ⟨htimely, atlas_invariant squares clearedCalls htimely⟩

/-- Ten glyphs of which nine fit, while the rebuilds of this second are used up. -/
def silentCalls : List Call :=
  [.clearBudgeted 0 0, .clearBudgeted 0 0, .sync (List.range 10) 1 0 0]

/-- Nine glyphs are drawn, and the sync reports no change. -/
theorem sync_alters_silently :
    Timely 0 silentCalls ∧ ¬ Along (History.step squares) (Reports squares) .new silentCalls := by
  refine ⟨by simp [silentCalls, Timely], fun h => ?_⟩
  obtain ⟨-, -, hreports, -⟩ := h
  exact (reports_iff _ _).mp hreports ⟨by decide +kernel, by decide +kernel⟩

end Kwe.Text

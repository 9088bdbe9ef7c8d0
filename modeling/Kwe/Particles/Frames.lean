import Kwe.Particles.Playback

/-!
Frames of any length: what a list of frames leaves depends on their sum, and the vertices are
rebuilt whenever a fixed step ran.

* `frames_eq`: a list of frames is the fixed steps of its whole time;
* `frame_rate_independent`: the same for two lists, the flag of a frame, and the vertices.
-/

namespace Kwe.Particles.Motion

open Foundation

/-! ## Vertices -/

structure SpritesheetGrid where
  cols : Nat
  rows : Nat
  frameCount : Nat
  duration : ℚ
  deriving DecidableEq, Repr

namespace SpritesheetGrid

def frameUvOriginAndSize (grid : SpritesheetGrid) (frame : Nat) : Vec × Vec :=
  let frame := min frame (grid.frameCount - 1)
  let cols := max grid.cols 1
  let rows := max grid.rows 1
  let size : Vec := (1 / cols, 1 / rows)
  (((frame % cols : Nat) * size.1, (frame / cols : Nat) * size.2), size)

def frameFor (grid : SpritesheetGrid) (elapsed lifeFraction : ℚ) : Nat :=
  if grid.frameCount = 0 then 0
  else
    let unit :=
      if 0 < grid.duration then Int.fract (max elapsed 0 / grid.duration)
      else clamp 0 1 lifeFraction
    min (toU32 (⌊unit * grid.frameCount⌋ : ℚ)) (grid.frameCount - 1)

end SpritesheetGrid

/-- What the vertices depend on besides the simulation. -/
structure Look where
  sizeStart : ℚ
  sizeEnd : ℚ
  colorStart : Rgb
  colorEnd : Rgb
  alphaStart : ℚ
  alphaEnd : ℚ
  spritesheet : Option SpritesheetGrid
  scale : Vec
  textureRatio : ℚ
  deriving DecidableEq, Repr

structure Vertex where
  position : Vec
  uv : Vec
  color : Rgb
  alpha : ℚ
  size : ℚ
  deriving DecidableEq, Repr

def mix (start stop k : ℚ) : ℚ := start + (stop - start) * k

/-- The size, the color and the alpha of a particle. -/
def Simulation.shade (s : Simulation) (look : Look) (p : Particle) : ℚ × Rgb × ℚ :=
  match s.component with
  | some _ => (p.size, p.color, p.alpha)
  | none =>
    let k := p.lifeFraction
    (mix look.sizeStart look.sizeEnd k * s.size,
      (mix look.colorStart.1 look.colorEnd.1 k * s.colorn,
        mix look.colorStart.2.1 look.colorEnd.2.1 k * s.colorn,
        mix look.colorStart.2.2 look.colorEnd.2.2 k * s.colorn),
      mix look.alphaStart look.alphaEnd k * s.alphaFactor)

/-- The corners of a particle: left, right, top, bottom. -/
def Simulation.corners (s : Simulation) (look : Look) (p : Particle) (size : ℚ) :
    ℚ × ℚ × ℚ × ℚ :=
  match s.component with
  | some _ =>
    let cx := s.origin.1 + (p.x - s.origin.1) * look.scale.1
    let cy := s.origin.2 + (p.y - s.origin.2) * look.scale.2
    let halfX := size * (1 / 2) * |look.scale.1|
    let halfY := size * (1 / 2) * |look.scale.2| * look.textureRatio
    (cx - halfX, cx + halfX, cy - halfY, cy + halfY)
  | none =>
    let half := size * (1 / 2)
    (p.x - half, p.x + half, p.y - half, p.y + half)

def Simulation.particleVertices (s : Simulation) (look : Look) (p : Particle) : List Vertex :=
  let (size, color, alpha) := s.shade look p
  let (x0, x1, y0, y1) := s.corners look p size
  let (uv, uvSize) : Vec × Vec :=
    match look.spritesheet with
    | some grid => grid.frameUvOriginAndSize (grid.frameFor p.age p.lifeFraction)
    | none => ((0, 0), (1, 1))
  let vertex := fun (x y u v : ℚ) => (⟨(x, y), (u, v), color, alpha, size⟩ : Vertex)
  [vertex x0 y0 uv.1 uv.2, vertex x1 y0 (uv.1 + uvSize.1) uv.2,
    vertex x1 y1 (uv.1 + uvSize.1) (uv.2 + uvSize.2),
    vertex x1 y1 (uv.1 + uvSize.1) (uv.2 + uvSize.2), vertex x0 y1 uv.1 (uv.2 + uvSize.2),
    vertex x0 y0 uv.1 uv.2]

/-- Six vertices for each particle. -/
def Simulation.buildVertexBytes (s : Simulation) (look : Look) : List Vertex :=
  s.particles.flatMap (s.particleVertices look)

section Elementary

variable (f : Elementary) (checks : Bool)

/-- Frames one after the other. -/
def frames (s : System) : List ℚ → Except Panic System
  | [] => .ok s
  | dt :: dts =>
    match s.simulate f checks dt with
    | .error e => .error e
    | .ok (s, _) => frames s dts

/-- A frame of the worker, which rebuilds the vertices when the simulation says so. -/
def syncParticles (look : Look) (s : System) (shown : List Vertex) (dt : ℚ) :
    Except Panic (System × List Vertex) :=
  match s.simulate f checks dt with
  | .error e => .error e
  | .ok (s, true) => .ok (s, s.buildVertexBytes look)
  | .ok (s, false) => .ok (s, shown)

def syncFrames (look : Look) (s : System) (shown : List Vertex) :
    List ℚ → Except Panic (System × List Vertex)
  | [] => .ok (s, shown)
  | dt :: dts =>
    match syncParticles f checks look s shown dt with
    | .error e => .error e
    | .ok (s, shown) => syncFrames look s shown dts

end Elementary

/-- The time that whole steps leave over. -/
def leftOver (time : ℚ) : ℚ := time - FixedStep.count fixedStep time * fixedStep

/-- No frame reaches the cap of the accumulated time. -/
def Uncapped (rate : ℚ) : ℚ → List ℚ → Prop
  | _, [] => True
  | left, dt :: dts =>
    left + dt * rate ≤ maxAccumulatedSimSeconds ∧ Uncapped rate (leftOver (left + dt * rate)) dts

/-! ## Frames -/

variable {f : Elementary}

theorem simulate_eq (checks : Bool) (s : System) (dt : ℚ) :
    s.simulate f checks dt =
      (FixedStep.times (Simulation.stepFixed f checks fixedStep) (s.steps dt)
        s.toSimulation).map fun b =>
          ({ s with toSimulation := b, simAccumulator := leftOver (s.accumulated dt) },
            decide (fixedStep ≤ s.accumulated dt)) := by
  unfold System.simulate
  dsimp only
  rw [FixedStep.loop_eq fixedStep_pos]
  unfold System.steps
  cases FixedStep.times (Simulation.stepFixed f checks fixedStep)
    (FixedStep.count fixedStep (s.accumulated dt)) s.toSimulation with
  | error e => rfl
  | ok b => rfl

theorem leftOver_lt (time : ℚ) : leftOver time < fixedStep :=
  FixedStep.left_lt fixedStep_pos time

theorem accumulated_eq {s : System} {dt : ℚ} (hdt : 0 ≤ dt ∧ dt ≤ 1)
    (hcap : s.simAccumulator + dt * s.rate ≤ maxAccumulatedSimSeconds) :
    s.accumulated dt = s.simAccumulator + dt * s.rate := by
  have hclamp : clamp 0 maxFrameDt dt = dt := by
    rw [clamp, maxFrameDt, min_eq_left hdt.2, max_eq_right hdt.1]
  rw [System.accumulated, hclamp, min_eq_left hcap]

/-- **Frames.**  A list of frames is the whole steps of its time; without a frame there must be
less than a step to begin with. -/
theorem frames_eq (checks : Bool) {s : System} {dts : List ℚ}
    (hleft : s.simAccumulator < fixedStep ∨ dts ≠ []) (hdts : ∀ dt ∈ dts, 0 ≤ dt ∧ dt ≤ 1)
    (hcap : Uncapped s.rate s.simAccumulator dts) (hrate : 0 ≤ s.rate) :
    frames f checks s dts =
      (FixedStep.times (Simulation.stepFixed f checks fixedStep)
        (FixedStep.count fixedStep (s.simAccumulator + s.rate * dts.sum)) s.toSimulation).map
        fun b => { s with
          toSimulation := b
          simAccumulator := leftOver (s.simAccumulator + s.rate * dts.sum) } := by
  induction dts generalizing s with
  | nil =>
    have hlt := hleft.resolve_right (not_not_intro rfl)
    have hcount := FixedStep.count_of_lt fixedStep_pos hlt
    simp [frames, leftOver, hcount, FixedStep.times, Except.map]
  | cons dt dts ih =>
    obtain ⟨hdt, hrest⟩ := List.forall_mem_cons.mp hdts
    obtain ⟨hfirst, hothers⟩ := hcap
    have hsum : 0 ≤ s.rate * dts.sum :=
      mul_nonneg hrate (List.sum_nonneg fun d hd => (hrest d hd).1)
    have htime : s.simAccumulator + s.rate * (dt :: dts).sum =
        s.simAccumulator + dt * s.rate + s.rate * dts.sum := by
      rw [List.sum_cons]
      ring
    have haccumulated := accumulated_eq hdt hfirst
    have hcount := FixedStep.count_add fixedStep_pos (s.simAccumulator + dt * s.rate) hsum
    have hover : leftOver (s.simAccumulator + dt * s.rate + s.rate * dts.sum) =
        leftOver (leftOver (s.simAccumulator + dt * s.rate) + s.rate * dts.sum) := by
      rw [leftOver, hcount, leftOver, leftOver]
      push_cast
      ring
    rw [frames, simulate_eq, htime, hover, hcount, FixedStep.times_add, System.steps, haccumulated]
    cases FixedStep.times (Simulation.stepFixed f checks fixedStep)
      (FixedStep.count fixedStep (s.simAccumulator + dt * s.rate)) s.toSimulation with
    | error e => rfl
    | ok b => exact ih (.inl (leftOver_lt _)) hrest hothers hrate

/-- Without a step a frame changes nothing but the time that waits. -/
theorem simulate_flag {checks : Bool} {s s' : System} {dt : ℚ} {changed : Bool}
    (h : s.simulate f checks dt = .ok (s', changed)) :
    (changed = true ↔ 0 < s.steps dt) ∧
      FixedStep.times (Simulation.stepFixed f checks fixedStep) (s.steps dt) s.toSimulation =
        .ok s'.toSimulation ∧ s'.rate = s.rate := by
  rw [simulate_eq] at h
  cases htimes : FixedStep.times (Simulation.stepFixed f checks fixedStep) (s.steps dt)
      s.toSimulation with
  | error e =>
    rw [htimes] at h
    exact nomatch h
  | ok b =>
    rw [htimes] at h
    simp only [Except.map, Except.ok.injEq, Prod.mk.injEq] at h
    obtain ⟨rfl, rfl⟩ := h
    refine ⟨?_, rfl, rfl⟩
    rw [decide_eq_true_eq, System.steps]
    rcases lt_or_ge (s.accumulated dt) fixedStep with hlt | hge
    · rw [FixedStep.count_of_lt fixedStep_pos hlt]
      exact iff_of_false (not_le.mpr hlt) (Nat.lt_irrefl 0)
    · rw [FixedStep.count_of_le fixedStep_pos hge]
      exact iff_of_true hge (Nat.succ_pos _)

theorem simulate_unchanged {checks : Bool} {s s' : System} {dt : ℚ}
    (h : s.simulate f checks dt = .ok (s', false)) : s'.toSimulation = s.toSimulation := by
  obtain ⟨hflag, htimes, -⟩ := simulate_flag h
  have hnone : s.steps dt = 0 := Nat.eq_zero_of_not_pos fun hpos => nomatch hflag.mpr hpos
  rw [hnone] at htimes
  exact (Except.ok.inj htimes).symm

/-- **Vertices.**  The vertices that the worker shows are those of the particles. -/
theorem syncFrames_current {checks : Bool} {look : Look} {s s' : System}
    {shown shown' : List Vertex} {dts : List ℚ} (hshown : shown = s.buildVertexBytes look)
    (h : syncFrames f checks look s shown dts = .ok (s', shown')) :
    shown' = s'.buildVertexBytes look := by
  induction dts generalizing s shown with
  | nil =>
    simp only [syncFrames, Except.ok.injEq, Prod.mk.injEq] at h
    obtain ⟨rfl, rfl⟩ := h
    exact hshown
  | cons dt dts ih =>
    rw [syncFrames, syncParticles] at h
    cases hsimulate : s.simulate f checks dt with
    | error e =>
      rw [hsimulate] at h
      exact nomatch h
    | ok result =>
      obtain ⟨s₁, changed⟩ := result
      rw [hsimulate] at h
      cases changed with
      | true => exact ih rfl h
      | false =>
        refine ih ?_ h
        rw [hshown, simulate_unchanged hsimulate]

/-- **Frame rates.**  Lists of frames with one sum leave the same system, where no frame reaches
the cap.  A frame returns true exactly when a fixed step ran, what it changes without one is the
waiting time alone, and rebuilding the vertices after such frames only keeps them current. -/
theorem frame_rate_independent (f : Elementary) (checks : Bool) (look : Look) (s : System)
    (hrate : 0 ≤ s.rate) :
    (∀ dts dts', (s.simAccumulator < fixedStep ∨ dts ≠ [] ∧ dts' ≠ []) →
      (∀ dt ∈ dts ++ dts', 0 ≤ dt ∧ dt ≤ 1) → dts.sum = dts'.sum →
      Uncapped s.rate s.simAccumulator dts → Uncapped s.rate s.simAccumulator dts' →
      frames f checks s dts = frames f checks s dts') ∧
    (∀ dt s' changed, s.simulate f checks dt = .ok (s', changed) →
      (changed = true ↔ 0 < s.steps dt) ∧
      FixedStep.times (Simulation.stepFixed f checks fixedStep) (s.steps dt) s.toSimulation =
        .ok s'.toSimulation ∧
      (changed = false → s' = { s with simAccumulator := s'.simAccumulator })) ∧
    ∀ dts s' shown,
      syncFrames f checks look s (s.buildVertexBytes look) dts = .ok (s', shown) →
      shown = s'.buildVertexBytes look := by
  refine ⟨fun dts dts' hleft hdts hsum hcap hcap' => ?_, fun dt s' changed h => ?_,
    fun dts s' shown h => syncFrames_current rfl h⟩
  · obtain ⟨hall, hall'⟩ := List.forall_mem_append.mp hdts
    rw [frames_eq checks (hleft.imp_right And.left) hall hcap hrate,
      frames_eq checks (hleft.imp_right And.right) hall' hcap' hrate, hsum]
  · obtain ⟨hflag, htimes, hsame⟩ := simulate_flag h
    refine ⟨hflag, htimes, ?_⟩
    rintro rfl
    have hstill := simulate_unchanged h
    cases s'
    simp_all

/-! ### Frames of a flat system -/

def look : Look where
  sizeStart := 8
  sizeEnd := 8
  colorStart := (1, 1, 1)
  colorEnd := (1, 1, 1)
  alphaStart := 1
  alphaEnd := 0
  spritesheet := none
  scale := (1, 1)
  textureRatio := 1

theorem uncapped_of_short {left rate : ℚ} {dts : List ℚ} (hleft : left < fixedStep)
    (hdts : ∀ dt ∈ dts, dt * rate ≤ 1 / 2) : Uncapped rate left dts := by
  induction dts generalizing left with
  | nil => trivial
  | cons dt dts ih =>
    obtain ⟨hdt, hrest⟩ := List.forall_mem_cons.mp hdts
    refine ⟨?_, ih (leftOver_lt _) hrest⟩
    have hstep : fixedStep ≤ 1 / 2 := by norm_num [fixedStep]
    have hcap : maxAccumulatedSimSeconds = 1 := rfl
    linarith

theorem frame_rate_independent_flat :
    frames plain true flat [1 / 3, 1 / 7] = frames plain true flat [1 / 7, 1 / 6, 1 / 6] := by
  have hrate : flat.rate = 1 := rfl
  refine (frame_rate_independent plain true look flat (by rw [hrate]; norm_num)).1 _ _
    (.inl fixedStep_pos) ?_ (by norm_num) ?_ ?_
  · decide +kernel
  · exact uncapped_of_short fixedStep_pos (by rw [hrate]; norm_num)
  · exact uncapped_of_short fixedStep_pos (by rw [hrate]; norm_num)

/-- Half a step is time that waits: the frame returns false and changes an accumulator. -/
theorem half_step_waits : ∃ s', flat.simulate plain true (1 / 120) = .ok (s', false) ∧
    s'.simAccumulator ≠ flat.simAccumulator := by
  have htime : flat.accumulated (1 / 120) = 1 / 120 := by decide +kernel
  have hlt : flat.accumulated (1 / 120) < fixedStep := by
    rw [htime]
    norm_num [fixedStep]
  have hcount : flat.steps (1 / 120) = 0 := FixedStep.count_of_lt fixedStep_pos hlt
  refine ⟨{ flat with simAccumulator := 1 / 120 }, ?_, by decide +kernel⟩
  rw [simulate_eq, hcount, FixedStep.times, leftOver, FixedStep.count_of_lt fixedStep_pos hlt,
    decide_eq_false (not_le.mpr hlt), htime]
  simp [Except.map]

end Kwe.Particles.Motion

import Kwe.Foundation.Runs
import Kwe.Particles.Model

/-!
The population of a particle system over frames, controls and script writes.

* `stepFixed_ok`, `stepFixed_error`: what a fixed step does to the population;
* `population_iff`: when no subtraction underflows and no bound is passed.
-/

namespace Kwe.Particles

open Foundation

/-! ## Spawning -/

/-- What spawning and ageing leave as it is. -/
structure SameControls (s s' : System) : Prop where
  maxCount : s'.maxCount = s.maxCount
  emitting : s'.emitting = s.emitting
  burst : s'.burst = s.burst
  component : s'.component = s.component
  emitterAccumulators : s'.emitterAccumulators = s.emitterAccumulators

theorem SameControls.refl (s : System) : SameControls s s := ⟨rfl, rfl, rfl, rfl, rfl⟩

theorem SameControls.trans {s s' s'' : System} (h : SameControls s s') (h' : SameControls s' s'') :
    SameControls s s'' :=
  ⟨h'.maxCount.trans h.maxCount, h'.emitting.trans h.emitting, h'.burst.trans h.burst,
    h'.component.trans h.component, h'.emitterAccumulators.trans h.emitterAccumulators⟩

/-- A way to spawn one particle. -/
def Spawns (spawn : System → System) : Prop :=
  ∀ s, SameControls s (spawn s) ∧ (spawn s).particles.length = s.particles.length + 1

theorem spawns_spawnOne : Spawns System.spawnOne := fun s =>
  ⟨⟨rfl, rfl, rfl, rfl, rfl⟩, by simp [System.spawnOne]⟩

theorem spawns_spawnComponent (component : ComponentModel) (emitter : Emitter) :
    Spawns (System.spawnComponent component emitter) := fun s =>
  ⟨⟨rfl, rfl, rfl, rfl, rfl⟩, by simp [System.spawnComponent]⟩

theorem spawnMany_spec {spawn : System → System} (hspawn : Spawns spawn) (n : Nat) (s : System) :
    SameControls s (spawnMany spawn n s) ∧
      (spawnMany spawn n s).particles.length = s.particles.length + n := by
  induction n generalizing s with
  | zero => exact ⟨.refl s, rfl⟩
  | succ n ih =>
    obtain ⟨hone, hlength⟩ := hspawn s
    obtain ⟨hrest, hlength'⟩ := ih (spawn s)
    refine ⟨hone.trans hrest, ?_⟩
    rw [spawnMany, hlength', hlength]
    omega

/-- Where there is room, an emission fills it at most. -/
theorem emit_ok {spawn : System → System} (hspawn : Spawns spawn) {s : System}
    (h : s.particles.length ≤ s.maxCount) (checks : Bool) (requested : Nat) :
    ∃ s', s.emit checks spawn requested = .ok s' ∧ SameControls s s' ∧
      s'.particles.length ≤ s.maxCount := by
  obtain ⟨hsame, hlength⟩ :=
    spawnMany_spec hspawn (min requested (s.maxCount - s.particles.length)) s
  refine ⟨_, ?_, hsame, ?_⟩
  · rw [System.emit, subUsize, if_pos h]
  · rw [hlength]
    omega

theorem emit_error (spawn : System → System) {s : System} (h : s.maxCount < s.particles.length)
    (requested : Nat) : s.emit true spawn requested = .error .subtractOverflow := by
  rw [System.emit, subUsize, if_neg (Nat.not_le.mpr h), if_pos rfl]

/-! ## The component model -/

theorem emitAll_ok (checks : Bool) (component : ComponentModel) (h : ℚ) {emitters : List Emitter}
    {accumulators : List ℚ} (hlength : accumulators.length = emitters.length) (burst : Nat)
    {s : System} (hroom : s.particles.length ≤ s.maxCount) :
    ∃ s' rest, System.emitAll checks component h emitters accumulators burst s = .ok (s', rest) ∧
      rest.length = accumulators.length ∧ SameControls s s' ∧
      s'.particles.length ≤ s.maxCount := by
  induction emitters generalizing accumulators burst s with
  | nil => exact ⟨s, accumulators, rfl, rfl, .refl s, hroom⟩
  | cons emitter emitters ih =>
    cases accumulators with
    | nil => cases hlength
    | cons accumulator accumulators =>
      have hrest : accumulators.length = emitters.length := Nat.succ_injective hlength
      have hspawn := spawns_spawnComponent component emitter
      rw [System.emitAll]
      split
      next =>
        obtain ⟨s₁, hemit, hsame, hroom₁⟩ := emit_ok hspawn hroom checks (saturatingAdd32
          (due accumulator (emitter.rate * s.count * s.emissionRate * h)).1 burst)
        obtain ⟨s₂, rest, hall, hlen, hsame', hroom₂⟩ :=
          ih hrest 0 (s := s₁) (hsame.maxCount ▸ hroom₁)
        refine ⟨s₂, (due accumulator (emitter.rate * s.count * s.emissionRate * h)).2 :: rest, ?_,
          congrArg Nat.succ hlen, hsame.trans hsame', hsame.maxCount ▸ hroom₂⟩
        dsimp only
        rw [hemit]
        dsimp only
        rw [hall]
      next =>
        obtain ⟨s₁, hemit, hsame, hroom₁⟩ := emit_ok hspawn hroom checks burst
        obtain ⟨s₂, rest, hall, hlen, hsame', hroom₂⟩ :=
          ih hrest 0 (s := s₁) (hsame.maxCount ▸ hroom₁)
        refine ⟨s₂, accumulator :: rest, ?_, congrArg Nat.succ hlen, hsame.trans hsame',
          hsame.maxCount ▸ hroom₂⟩
        rw [hemit]
        dsimp only [List.tail_cons]
        rw [hall]
        rfl

theorem emitAll_error (component : ComponentModel) (h : ℚ) {emitters : List Emitter}
    (hsome : emitters ≠ []) {accumulators : List ℚ}
    (hlength : accumulators.length = emitters.length) (burst : Nat) {s : System}
    (hfull : s.maxCount < s.particles.length) :
    System.emitAll true component h emitters accumulators burst s =
      .error .subtractOverflow := by
  cases emitters with
  | nil => exact absurd rfl hsome
  | cons emitter emitters =>
    cases accumulators with
    | nil => cases hlength
    | cons accumulator accumulators =>
      rw [System.emitAll]
      split
      next =>
        dsimp only
        rw [emit_error _ hfull]
      next => rw [emit_error _ hfull]

/-! ## Fixed steps -/

/-- Each emitter has its accumulator. -/
def System.Wf (s : System) : Prop :=
  s.emitterAccumulators.length = s.component.elim 0 (·.emitters.length)

/-- A fixed step asks for room. -/
def System.Emits (s : System) : Prop :=
  (s.emitting = true ∨ 0 < s.burst) ∧ ∀ component, s.component = some component →
    component.emitters ≠ []

/-- What a fixed step does to the population. -/
structure Stepped (s s' : System) : Prop where
  wf : s'.Wf
  maxCount : s'.maxCount = s.maxCount
  growth : s'.particles.length ≤ max s.particles.length s.maxCount
  room : s'.Emits → s'.particles.length ≤ s'.maxCount

theorem length_retain_le (particles : List Particle) :
    (retain particles).length ≤ particles.length := List.length_filter_le _ _

theorem stepFixedFlat_ok (checks : Bool) (h : ℚ) {s : System} (hflat : s.component = none)
    (hroom : s.Emits → s.particles.length ≤ s.maxCount) :
    ∃ s', s.stepFixedFlat checks h = .ok s' ∧ s'.component = none ∧
      s'.emitterAccumulators = s.emitterAccumulators ∧ s'.maxCount = s.maxCount ∧
      s'.particles.length ≤ max s.particles.length s.maxCount ∧
      (s'.Emits → s'.particles.length ≤ s.maxCount) := by
  unfold System.stepFixedFlat
  split
  next hemits =>
    have hlen := hroom ⟨hemits, fun component hc => by rw [hflat] at hc; cases hc⟩
    dsimp only
    generalize (if s.emitting = true then
      due s.spawnAccumulator (s.spawnRate * s.count * s.emissionRate * h)
      else (0, s.spawnAccumulator)) = spawned
    obtain ⟨s₁, hemit, hsame, hroom₁⟩ := emit_ok spawns_spawnOne
      (s := { s with spawnAccumulator := spawned.2, burst := 0 }) hlen checks
      (saturatingAdd32 spawned.1 s.burst)
    rw [hemit]
    refine ⟨_, rfl, hsame.component.trans hflat, hsame.emitterAccumulators, hsame.maxCount, ?_,
      fun _ => ?_⟩
    · rw [List.length_map]
      exact Nat.le_trans hroom₁ (Nat.le_max_right _ _)
    · rw [List.length_map]
      exact hroom₁
  next hquiet =>
    exact ⟨s, rfl, hflat, rfl, rfl, Nat.le_max_left _ _, fun hemits => absurd hemits.1 hquiet⟩

theorem stepFixedComponent_ok (checks : Bool) {component : ComponentModel} (h : ℚ) {s : System}
    (hcomponent : s.component = some component) (hwf : s.Wf)
    (hroom : s.Emits → s.particles.length ≤ s.maxCount) :
    ∃ s', s.stepFixedComponent checks component h = .ok s' ∧ s'.component = some component ∧
      s'.emitterAccumulators.length = s.emitterAccumulators.length ∧ s'.maxCount = s.maxCount ∧
      s'.particles.length ≤ max s.particles.length s.maxCount ∧
      (s'.Emits → s'.particles.length ≤ s.maxCount) := by
  have hlength : s.emitterAccumulators.length = component.emitters.length := by
    rw [System.Wf, hcomponent] at hwf
    exact hwf
  unfold System.stepFixedComponent
  split
  next hemits =>
    by_cases hnone : component.emitters = []
    · have hall : System.emitAll checks component h component.emitters s.emitterAccumulators
          s.burst { s with burst := 0 } =
            .ok ({ s with burst := 0 }, s.emitterAccumulators) := by
        rw [hnone, System.emitAll]
      rw [hall]
      exact ⟨_, rfl, hcomponent, rfl, rfl, Nat.le_max_left _ _,
        fun hstill => absurd hnone (hstill.2 component hcomponent)⟩
    · have hlen := hroom ⟨hemits, fun c hc =>
        Option.some.inj (hcomponent.symm.trans hc) ▸ hnone⟩
      obtain ⟨s₁, rest, hall, hrest, hsame, hroom₁⟩ :=
        emitAll_ok checks component h hlength s.burst (s := { s with burst := 0 }) hlen
      rw [hall]
      exact ⟨_, rfl, hsame.component.trans hcomponent, hrest, hsame.maxCount,
        Nat.le_trans hroom₁ (Nat.le_max_right _ _), fun _ => hroom₁⟩
  next hquiet =>
    exact ⟨s, rfl, hcomponent, rfl, rfl, Nat.le_max_left _ _, fun hemits => absurd hemits.1 hquiet⟩

/-- **A step with room.**  It keeps the population within the cap, or below
what it was. -/
theorem stepFixed_ok (checks : Bool) (h : ℚ) {s : System} (hwf : s.Wf)
    (hroom : s.Emits → s.particles.length ≤ s.maxCount) :
    ∃ s', System.stepFixed checks h s = .ok s' ∧ Stepped s s' := by
  unfold System.stepFixed
  cases hcomponent : s.component with
  | none =>
    obtain ⟨s₁, hok, hcomponent₁, haccumulators, hmax, hgrowth, hroom₁⟩ :=
      stepFixedFlat_ok checks h hcomponent hroom
    dsimp only
    rw [hok]
    have hkept := length_retain_le s₁.particles
    refine ⟨_, rfl, ?_, hmax, Nat.le_trans hkept hgrowth, fun hemits => ?_⟩
    · rw [System.Wf, hcomponent] at hwf
      rw [System.Wf, hcomponent₁, haccumulators]
      exact hwf
    · exact Nat.le_trans hkept (hmax ▸ hroom₁ hemits)
  | some component =>
    obtain ⟨s₁, hok, hcomponent₁, haccumulators, hmax, hgrowth, hroom₁⟩ :=
      stepFixedComponent_ok checks h hcomponent hwf hroom
    dsimp only
    rw [hok]
    have hkept := length_retain_le (s₁.particles.map fun p => { p with age := p.age + h })
    rw [List.length_map] at hkept
    refine ⟨_, rfl, ?_, hmax, Nat.le_trans hkept hgrowth, fun hemits => ?_⟩
    · rw [System.Wf, hcomponent] at hwf
      rw [System.Wf, hcomponent₁, haccumulators]
      exact hwf
    · exact Nat.le_trans hkept (hmax ▸ hroom₁ hemits)

/-- **A step without room.**  With checks it panics. -/
theorem stepFixed_error (h : ℚ) {s : System} (hwf : s.Wf) (hemits : s.Emits)
    (hfull : s.maxCount < s.particles.length) :
    System.stepFixed true h s = .error .subtractOverflow := by
  unfold System.stepFixed
  cases hcomponent : s.component with
  | none =>
    dsimp only [System.stepFixedFlat]
    rw [if_pos hemits.1, emit_error]
    exact hfull
  | some component =>
    have hlength : s.emitterAccumulators.length = component.emitters.length := by
      rw [System.Wf, hcomponent] at hwf
      exact hwf
    have hall := emitAll_error component h (hemits.2 component hcomponent) hlength s.burst
      (s := { s with burst := 0 }) hfull
    dsimp only [System.stepFixedComponent]
    rw [if_pos hemits.1, hall]

/-! ## Frames -/

/-- A system whose population and cap are within the bound. -/
structure System.Within (s : System) : Prop where
  wf : s.Wf
  population : s.particles.length ≤ maxParticles
  cap : s.maxCount ≤ maxParticles

/-- Where the system asks for room, there is no more than its cap. -/
def System.HasRoom (s : System) : Prop := s.Emits → s.particles.length ≤ s.maxCount

theorem Stepped.within {s s' : System} (h : Stepped s s') (hs : s.Within) : s'.Within :=
  ⟨h.wf, Nat.le_trans h.growth (Nat.max_le.mpr ⟨hs.population, hs.cap⟩), h.maxCount ▸ hs.cap⟩

theorem fixedStep_pos : 0 < fixedStep := by norm_num [fixedStep]

theorem times_ok (checks : Bool) (n : Nat) {s : System} (hs : s.Within) (hroom : s.HasRoom) :
    ∃ s', FixedStep.times (System.stepFixed checks fixedStep) n s = .ok s' ∧ s'.Within ∧
      s'.HasRoom := by
  refine FixedStep.times_invariant (I := fun s : System => s.Within ∧ s.HasRoom) ?_ n ⟨hs, hroom⟩
  intro s ⟨hs, hroom⟩
  obtain ⟨s', hok, hstepped⟩ := stepFixed_ok checks fixedStep hs.wf hroom
  exact ⟨s', hok, hstepped.within hs, hstepped.room⟩

/-- A frame accumulates a second at most, and this is sixty steps. -/
theorem count_accumulated_le {s : System} {dt : F64} {time : ℚ}
    (h : s.accumulated dt = some time) : FixedStep.count fixedStep time ≤ 60 := by
  have hle : time ≤ maxAccumulatedSimSeconds := by
    unfold System.accumulated at h
    split at h
    next => exact Option.some.inj h ▸ min_le_right _ _
    next => cases h
  refine FixedStep.count_le fixedStep_pos (hle.trans ?_)
  norm_num [maxAccumulatedSimSeconds, fixedStep]

theorem simulate_ok (checks : Bool) {s : System} {dt : F64} (hs : s.Within)
    (hroom : ∀ time, s.accumulated dt = some time → fixedStep ≤ time → s.HasRoom) :
    ∃ s' ran, s.simulate checks dt = .ok (s', ran) ∧ s'.Within := by
  unfold System.simulate
  cases haccumulated : s.accumulated dt with
  | none => exact ⟨_, _, rfl, hs.wf, hs.population, hs.cap⟩
  | some time =>
    dsimp only
    rw [FixedStep.loop_eq fixedStep_pos]
    rcases lt_or_ge time fixedStep with hlt | hge
    · rw [FixedStep.count_of_lt fixedStep_pos hlt]
      exact ⟨_, _, rfl, hs.wf, hs.population, hs.cap⟩
    · obtain ⟨s', htimes, hs', -⟩ := times_ok checks (FixedStep.count fixedStep time) hs
        (hroom time haccumulated hge)
      rw [htimes]
      exact ⟨_, _, rfl, hs'.wf, hs'.population, hs'.cap⟩

theorem simulate_error {s : System} {dt : F64} {time : ℚ} (hwf : s.Wf)
    (haccumulated : s.accumulated dt = some time) (hge : fixedStep ≤ time) (hemits : s.Emits)
    (hfull : s.maxCount < s.particles.length) :
    s.simulate true dt = .error .subtractOverflow := by
  unfold System.simulate
  rw [haccumulated]
  dsimp only
  rw [FixedStep.loop_eq fixedStep_pos, FixedStep.count_of_le fixedStep_pos hge, FixedStep.times,
    stepFixed_error fixedStep hwf hemits hfull]
  rfl

/-! ## Runs -/

inductive Input
  | simulate (dt : F64)
  | play
  | pause
  | stop
  | emitParticles (count : UInt32)
  | setScalar (prop : String) (value : F64)
  deriving DecidableEq, Repr

/-- A panic ends the renderer; the system is as it was. -/
def step (checks : Bool) (s : System) : Input → System
  | .simulate dt =>
    match s.simulate checks dt with
    | .ok (s, _) => s
    | .error _ => s
  | .play => s.play
  | .pause => s.pause
  | .stop => s.stop
  | .emitParticles count => s.emitParticles count
  | .setScalar prop value => s.setScalar prop value

/-- A frame that runs a step has room where the system asks for it. -/
def Roomy (s : System) : Input → Prop
  | .simulate dt => ∀ time, s.accumulated dt = some time → fixedStep ≤ time → s.HasRoom
  | _ => True

/-- The bounds: no subtraction underflows, a frame runs sixty steps at most,
none of them grows the population beyond the cap, and it stays within
`maxParticles`. -/
def Bounded (checks : Bool) (s : System) (i : Input) : Prop :=
  (step checks s i).particles.length ≤ maxParticles ∧
    ∀ dt, i = .simulate dt → s.simulate true dt ≠ .error .subtractOverflow ∧
      ∀ time, s.accumulated dt = some time → FixedStep.count fixedStep time ≤ 60 ∧
        ∀ n < FixedStep.count fixedStep time, ∀ before after,
          FixedStep.times (System.stepFixed checks fixedStep) n s = .ok before →
          System.stepFixed checks fixedStep before = .ok after →
          after.particles.length ≤ max before.particles.length before.maxCount ∧
            after.particles.length ≤ maxParticles

theorem clampMaxCount_le (value : Nat) : clampMaxCount value ≤ maxParticles := by
  unfold clampMaxCount maxParticles
  omega

theorem within_setScalar {s : System} (hs : s.Within) (prop : String) (value : F64) :
    (s.setScalar prop value).Within := by
  unfold System.setScalar
  split
  case h_6 => exact ⟨hs.wf, hs.population, clampMaxCount_le _⟩
  all_goals exact ⟨hs.wf, hs.population, hs.cap⟩

/-- What a step with room leaves. -/
theorem within_step (checks : Bool) {s : System} {i : Input} (hs : s.Within) (hroomy : Roomy s i) :
    (step checks s i).Within := by
  cases i with
  | simulate dt =>
    obtain ⟨s', ran, hok, hs'⟩ := simulate_ok checks hs hroomy
    rw [step, hok]
    exact hs'
  | play => exact ⟨hs.wf, hs.population, hs.cap⟩
  | pause => exact ⟨hs.wf, hs.population, hs.cap⟩
  | stop => exact ⟨hs.wf, Nat.zero_le _, hs.cap⟩
  | emitParticles count => exact ⟨hs.wf, hs.population, hs.cap⟩
  | setScalar prop value => exact within_setScalar hs prop value

theorem bounded_of_roomy (checks : Bool) {s : System} {i : Input} (hs : s.Within)
    (hroomy : Roomy s i) : Bounded checks s i := by
  refine ⟨(within_step checks hs hroomy).population, ?_⟩
  rintro dt rfl
  refine ⟨?_, fun time haccumulated => ⟨count_accumulated_le haccumulated, ?_⟩⟩
  · obtain ⟨s', ran, hok, -⟩ := simulate_ok true hs hroomy
    rw [hok]
    exact fun h => by cases h
  · intro n hn before after hbefore hafter
    have hge : fixedStep ≤ time := by
      by_contra hlt
      rw [FixedStep.count_of_lt fixedStep_pos (not_le.mp hlt)] at hn
      exact absurd hn (Nat.not_lt_zero n)
    obtain ⟨s₁, htimes, hs₁, hroom₁⟩ := times_ok checks n hs (hroomy time haccumulated hge)
    obtain rfl : s₁ = before := Except.ok.inj (htimes.symm.trans hbefore)
    obtain ⟨s₂, hok, hstepped⟩ := stepFixed_ok checks fixedStep hs₁.wf hroom₁
    obtain rfl : s₂ = after := Except.ok.inj (hok.symm.trans hafter)
    exact ⟨hstepped.growth, (hstepped.within hs₁).population⟩

theorem roomy_of_bounded {checks : Bool} {s : System} {i : Input} (hs : s.Within)
    (hbounded : Bounded checks s i) : Roomy s i := by
  cases i with
  | simulate dt =>
    intro time haccumulated hge hemits
    by_contra hfull
    exact (hbounded.2 dt rfl).1
      (simulate_error hs.wf haccumulated hge hemits (Nat.not_le.mp hfull))
  | _ => trivial

theorem within_toSystem (spec : ParticleSpec) (systemIndex : Nat) :
    (spec.toSystem systemIndex).Within :=
  ⟨List.length_replicate, Nat.zero_le _, spec.maxCount_le⟩

/-- **The population of a system.**  A run keeps the bounds exactly if each
frame that runs a step finds no more particles than the cap, or nothing that
asks for room. -/
theorem population_iff (checks : Bool) (spec : ParticleSpec) (systemIndex : Nat)
    (inputs : List Input) :
    Runs.Along (step checks) (Bounded checks) (spec.toSystem systemIndex) inputs ↔
      Runs.Along (step checks) Roomy (spec.toSystem systemIndex) inputs := by
  refine (Runs.along_congr (I := System.Within) (C := fun _ _ => True) ?_ ?_
    (within_toSystem spec systemIndex)
    (Runs.along_of_forall (fun _ _ => trivial) _ _)).symm
  · exact fun s i hs _ hroomy => within_step checks hs hroomy
  · exact fun s i hs _ => ⟨bounded_of_roomy checks hs, roomy_of_bounded hs⟩

/-! ## A cap below the population -/

theorem defaultParticleMaxCount_le : defaultParticleMaxCount ≤ maxParticles := by decide

def burstSpec : ParticleSpec where
  spawnRate := 0
  life := 1
  speedMin := 0
  speedMax := 0
  spread := 0
  instanceCount := 1
  instanceRate := 1
  instanceLifetime := 1
  maxCount := defaultParticleMaxCount
  component := none
  maxCount_le := defaultParticleMaxCount_le

/-- A script lowers the cap while ten particles are alive, and asks for ten
more. -/
def lowered : List Input :=
  [.emitParticles 10, .simulate (.finite fixedStep), .setScalar "maxCount" (.finite 5),
    .emitParticles 10]

theorem accumulated_step {s : System} (hleft : s.simAccumulator = some 0) (hrate : s.rate = 1) :
    s.accumulated (.finite fixedStep) = some fixedStep := by
  rw [System.accumulated, hleft, hrate]
  norm_num [F64.clamp, clamp, maxFrameDt, maxAccumulatedSimSeconds, fixedStep]

theorem simulate_step (checks : Bool) {s : System} (hleft : s.simAccumulator = some 0)
    (hrate : s.rate = 1) : s.simulate checks (.finite fixedStep) =
      (System.stepFixed checks fixedStep s).map fun s =>
        ({ s with simAccumulator := some 0 }, true) := by
  have hcount : FixedStep.count fixedStep fixedStep = 1 := by
    rw [FixedStep.count, div_self fixedStep_pos.ne', Nat.floor_one]
  rw [System.simulate, accumulated_step hleft hrate]
  dsimp only
  rw [FixedStep.loop_eq fixedStep_pos, hcount, FixedStep.times]
  cases System.stepFixed checks fixedStep s with
  | error e => rfl
  | ok s => simp [FixedStep.times, Except.map]

/-- Ten particles of this age. -/
def System.withTen (s : System) (age : ℚ) : System :=
  { s with particles := List.replicate 10 ⟨age, 1⟩ }

theorem stepFixed_burst (checks : Bool) :
    System.stepFixed checks fixedStep ((burstSpec.toSystem 0).emitParticles 10) =
      .ok ((burstSpec.toSystem 0).withTen fixedStep) := by
  cases checks <;> decide +kernel

/-- The ten are alive, and the cap is at five. -/
def lower : System :=
  (((burstSpec.toSystem 0).withTen fixedStep).setScalar "maxCount" (.finite 5)).emitParticles 10

theorem run_lowered (checks : Bool) :
    Runs.run (step checks) (burstSpec.toSystem 0) lowered = lower := by
  have hburst : step checks ((burstSpec.toSystem 0).emitParticles 10)
      (.simulate (.finite fixedStep)) = (burstSpec.toSystem 0).withTen fixedStep := by
    rw [step, simulate_step checks rfl rfl, stepFixed_burst]
    rfl
  rw [lowered, Runs.run_cons, step, Runs.run_cons, hburst]
  rfl

theorem population_passes_cap :
    ¬ Runs.Along (step true) (Bounded true) (burstSpec.toSystem 0)
        (lowered ++ [.simulate (.finite fixedStep)]) ∧
      (Runs.run (step false) (burstSpec.toSystem 0)
        (lowered ++ [.simulate (.finite fixedStep)])).particles.length = 20 := by
  constructor
  · rw [Runs.along_append, run_lowered]
    intro h
    refine (h.2.1.2 _ rfl).1 (simulate_error rfl (accumulated_step rfl rfl) le_rfl ?_ ?_)
    · exact ⟨Or.inl rfl, fun component hc => by cases hc⟩
    · decide +kernel
  · rw [Runs.run_append, run_lowered, Runs.run_cons, step, simulate_step false rfl rfl]
    decide +kernel

end Kwe.Particles

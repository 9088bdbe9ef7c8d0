import Kwe.Foundation.Runs
import Kwe.Particles.Motion

/-!
Playing, pausing and stopping a particle system: what its fixed steps do to the particles.

* `emission_ok`: what a step spawns;
* `moves_iff`: when a step moves all particles and spawns what was requested;
* `Fading.step`: particles fade while nothing is emitted;
* `playback`: every run of frames and controls.
-/

namespace Kwe.Particles.Motion

open Foundation

/-! ## What is requested -/

/-- The particles that are due from these emitters. -/
def Simulation.dueFrom (s : Simulation) (h : ℚ) : List Emitter → List ℚ → Nat
  | [], _ => 0
  | emitter :: emitters, accumulators =>
    (if s.emitting ∧ 0 < emitter.rate then
      (due (accumulators.headD 0) (emitter.rate * s.count * s.emissionRate * h)).1
    else 0) + s.dueFrom h emitters accumulators.tail

/-- The particles that a step is asked for: by the emitters and by a burst. -/
def Simulation.requested (s : Simulation) (h : ℚ) : Nat :=
  match s.component with
  | some component => s.burst + s.dueFrom h component.emitters s.emitterAccumulators
  | none =>
    s.burst +
      if s.emitting then (due s.spawnAccumulator (s.spawnRate * s.count * s.emissionRate * h)).1
      else 0

section Elementary

variable (f : Elementary)

/-- The spawning of a step. -/
def Simulation.emission (checks : Bool) (h : ℚ) (s : Simulation) : Except Panic Simulation :=
  match s.component with
  | some component => s.emitComponent f checks component h
  | none => if s.emitting ∨ 0 < s.burst then s.emitFlat f checks h else .ok s

/-- The rule by which the particles of a model move and age. -/
def Simulation.advance (s : Simulation) (h : ℚ) (particles : List Particle) : List Particle :=
  match s.component with
  | some component =>
    (applyOperators f s.origin s.simTime h component.operators s.turbulenceRuntime
      particles).map (·.grow h)
  | none => particles.map (·.integrate s.gravity h)

/-- A step spawns what was requested as far as there is a slot, and moves and ages every
particle. -/
def Simulation.Moves (checks : Bool) (h : ℚ) (s : Simulation) : Prop :=
  ∀ e s', s.emission f checks h = .ok e → s.stepFixed f checks h = .ok s' →
    (s.particles <+: e.particles ∧
      e.particles.length = min (s.particles.length + s.requested h) s.maxCount) ∧
    s'.particles = retain (s.advance f h e.particles)

end Elementary

/-- A flat system emits or has no particles; a component system without emitters has no burst
that it has room for. -/
def Simulation.Active (s : Simulation) : Prop :=
  match s.component with
  | some component => component.emitters = [] → s.burst = 0 ∨ s.maxCount ≤ s.particles.length
  | none => s.emitting = true ∨ 0 < s.burst ∨ s.particles = []

/-- What holds of a system between its steps. -/
structure Simulation.Wf (s : Simulation) : Prop where
  accumulators : s.emitterAccumulators.length = s.component.elim 0 (·.emitters.length)
  room : s.particles.length ≤ s.maxCount
  cap : s.maxCount ≤ maxParticles
  burst : s.burst ≤ maxParticles
  alive : ∀ p ∈ s.particles, p.age < p.life

theorem Simulation.wf_toSystem (spec : ParticleSpec) (systemIndex : Nat) :
    (spec.toSystem systemIndex).toSimulation.Wf :=
  ⟨List.length_replicate, Nat.zero_le _, spec.maxCount_le, Nat.zero_le _, List.forall_mem_nil _⟩

/-! ## Newborn particles -/

theorem fixedStep_pos : 0 < fixedStep := by norm_num [fixedStep]

theorem drawOscillations_age (operators : List Operator) (p : Particle) (state : SplitMix64) :
    (drawOscillations operators p state).1.age = p.age := by
  induction operators generalizing p state with
  | nil => rfl
  | cons operator operators ih => cases operator <;> exact ih _ _

variable {f : Elementary}

theorem applyInitializers_age (initializers : List Initializer) (p : Particle)
    (state : SplitMix64) : (applyInitializers f initializers p state).1.age = p.age := by
  induction initializers generalizing p state with
  | nil => rfl
  | cons initializer initializers ih =>
    rw [applyInitializers]
    refine (ih _ _).trans ?_
    cases initializer <;> rfl

/-- Spawning adds this many living particles, and changes nothing else but the draws and the
diagnostic. -/
def Grows (n : Nat) (s s' : Simulation) : Prop :=
  ∃ spawned prng diag, spawned.length = n ∧ (∀ p ∈ spawned, p.age < p.life) ∧
    s' = { s with particles := s.particles ++ spawned, prng := prng, cappedDiag := diag }

theorem Grows.refl (s : Simulation) : Grows 0 s s :=
  ⟨[], s.prng, s.cappedDiag, rfl, List.forall_mem_nil _, by simp⟩

theorem Grows.trans {m n : Nat} {s s' s'' : Simulation} (h : Grows m s s') (h' : Grows n s' s'') :
    Grows (m + n) s s'' := by
  obtain ⟨spawned, prng, diag, rfl, halive, rfl⟩ := h
  obtain ⟨spawned', prng', diag', rfl, halive', rfl⟩ := h'
  refine ⟨spawned ++ spawned', prng', diag', List.length_append, fun p hp => ?_, ?_⟩
  · exact (List.mem_append.mp hp).elim (halive p) (halive' p)
  · simp [List.append_assoc]

theorem Grows.length {n : Nat} {s s' : Simulation} (h : Grows n s s') :
    s'.particles.length = s.particles.length + n := by
  obtain ⟨spawned, prng, diag, rfl, -, rfl⟩ := h
  exact List.length_append

theorem spawnOne_grows (s : Simulation) : Grows 1 s (s.spawnOne f) := by
  refine ⟨_, _, s.cappedDiag, ?_, ?_, rfl⟩
  · rfl
  · intro p hp
    obtain rfl := List.mem_singleton.mp hp
    exact lt_of_lt_of_le fixedStep_pos (le_max_right _ _)

theorem spawnComponent_grows (component : ComponentModel) (emitter : Emitter) (s : Simulation) :
    Grows 1 s (s.spawnComponent f component emitter) := by
  refine ⟨_, _, s.cappedDiag, ?_, ?_, rfl⟩
  · rfl
  · intro p hp
    obtain rfl := List.mem_singleton.mp hp
    refine lt_of_le_of_lt (le_of_eq ?_) (lt_of_lt_of_le fixedStep_pos (le_max_right _ _))
    exact (applyInitializers_age _ _ _).trans (drawOscillations_age _ _ _)

theorem spawnMany_grows {spawn : Simulation → Simulation} (hspawn : ∀ s, Grows 1 s (spawn s))
    (n : Nat) (s : Simulation) : Grows n s (spawnMany spawn n s) := by
  induction n generalizing s with
  | zero => exact .refl s
  | succ n ih =>
    rw [spawnMany, Nat.add_comm]
    exact (hspawn s).trans (ih (spawn s))

theorem emit_grows {spawn : Simulation → Simulation} (hspawn : ∀ s, Grows 1 s (spawn s))
    {s : Simulation} (hroom : s.particles.length ≤ s.maxCount) (checks : Bool)
    (requested : Nat) :
    ∃ s', s.emit checks spawn requested = .ok s' ∧
      Grows (min requested (s.maxCount - s.particles.length)) s s' := by
  have hdiag : ∀ diag, Grows 0 s { s with cappedDiag := diag } := fun diag =>
    ⟨[], s.prng, diag, rfl, List.forall_mem_nil _, by simp⟩
  have hgrows := (hdiag (s.cappedDiag || decide (s.maxCount - s.particles.length < requested))).trans
    (spawnMany_grows hspawn (min requested (s.maxCount - s.particles.length)) _)
  rw [Nat.zero_add] at hgrows
  rw [Simulation.emit, subUsize, if_pos hroom]
  exact ⟨_, rfl, hgrows⟩

/-! ## Emission -/

theorem due_le (accumulator added : ℚ) : (due accumulator added).1 ≤ 65536 := by
  have hle : min (accumulator + added) maxSpawnAccumulator ≤ 65536 := min_le_right _ _
  have hfloor : (⌊min (accumulator + added) maxSpawnAccumulator⌋ : ℚ) ≤ (65536 : ℕ) :=
    (Int.floor_le _).trans (by exact_mod_cast hle)
  exact (Nat.min_le_left _ _).trans (Nat.floor_le_of_le hfloor)

/-- A request is far from the bound of its type. -/
theorem saturatingAdd32_due {burst : Nat} (hburst : burst ≤ maxParticles)
    (accumulator added : ℚ) :
    saturatingAdd32 (due accumulator added).1 burst = (due accumulator added).1 + burst := by
  have hdue := due_le accumulator added
  unfold maxParticles at hburst
  exact Nat.min_eq_left (by omega)

theorem dueFrom_congr {s s' : Simulation} (hemitting : s'.emitting = s.emitting)
    (hcount : s'.count = s.count) (hrate : s'.emissionRate = s.emissionRate) (h : ℚ)
    (emitters : List Emitter) (accumulators : List ℚ) :
    s'.dueFrom h emitters accumulators = s.dueFrom h emitters accumulators := by
  induction emitters generalizing accumulators with
  | nil => rfl
  | cons emitter emitters ih => simp only [Simulation.dueFrom, ih, hemitting, hcount, hrate]

theorem Grows.dueFrom {n : Nat} {s s' : Simulation} (hgrows : Grows n s s') (h : ℚ)
    (emitters : List Emitter) (accumulators : List ℚ) :
    s'.dueFrom h emitters accumulators = s.dueFrom h emitters accumulators := by
  obtain ⟨spawned, prng, diag, -, -, rfl⟩ := hgrows
  apply dueFrom_congr <;> rfl

theorem Grows.maxCount {n : Nat} {s s' : Simulation} (h : Grows n s s') :
    s'.maxCount = s.maxCount := by
  obtain ⟨spawned, prng, diag, -, -, rfl⟩ := h
  rfl

theorem emitAll_grows (checks : Bool) (component : ComponentModel) (h : ℚ) {emitters : List Emitter}
    {accumulators : List ℚ} (hlength : accumulators.length = emitters.length) {burst : Nat}
    (hburst : burst ≤ maxParticles) {s : Simulation} (hroom : s.particles.length ≤ s.maxCount) :
    ∃ s' rest, Simulation.emitAll f checks component h emitters accumulators burst s =
        .ok (s', rest) ∧ rest.length = accumulators.length ∧
      Grows (if emitters = [] then 0 else
        min (burst + s.dueFrom h emitters accumulators) (s.maxCount - s.particles.length)) s s' := by
  induction emitters generalizing accumulators burst s with
  | nil => exact ⟨s, accumulators, rfl, rfl, .refl s⟩
  | cons emitter emitters ih =>
    cases accumulators with
    | nil => cases hlength
    | cons accumulator accumulators =>
      have hrest : accumulators.length = emitters.length := Nat.succ_injective hlength
      have hspawn : ∀ s, Grows 1 s (s.spawnComponent f component emitter) :=
        spawnComponent_grows component emitter
      -- the emitter spawns what it can, and the others what is left
      have hfill : ∀ {asked : Nat} {s₁ s₂ : Simulation},
          Grows (min asked (s.maxCount - s.particles.length)) s s₁ →
          Grows (if emitters = [] then 0 else
            min (0 + s₁.dueFrom h emitters accumulators) (s₁.maxCount - s₁.particles.length))
            s₁ s₂ →
          Grows (min (asked + s.dueFrom h emitters accumulators)
            (s.maxCount - s.particles.length)) s s₂ := by
        intro asked s₁ s₂ hgrows hothers
        have hall := hgrows.trans hothers
        have hlen := hgrows.length
        rw [hgrows.dueFrom, hgrows.maxCount, hlen] at hall
        by_cases hnone : emitters = []
        · rw [if_pos hnone] at hall
          simpa [hnone, Simulation.dueFrom] using hall
        · rw [if_neg hnone] at hall
          convert hall using 1
          omega
      rw [Simulation.emitAll, if_neg (List.cons_ne_nil _ _), Simulation.dueFrom]
      by_cases hdue : s.emitting = true ∧ 0 < emitter.rate
      · rw [if_pos hdue, if_pos hdue]
        obtain ⟨s₁, hemit, hgrows⟩ := emit_grows hspawn hroom checks (saturatingAdd32
          (due accumulator (emitter.rate * s.count * s.emissionRate * h)).1 burst)
        have hroom₁ : s₁.particles.length ≤ s₁.maxCount := by
          rw [hgrows.length, hgrows.maxCount]
          omega
        obtain ⟨s₂, rest, hall, hlen, hothers⟩ := ih hrest (Nat.zero_le _) hroom₁
        dsimp only
        rw [hemit]
        dsimp only
        rw [hall]
        refine ⟨s₂, _, rfl, congrArg Nat.succ hlen, ?_⟩
        rw [saturatingAdd32_due hburst] at hgrows
        have hboth := hfill hgrows hothers
        simp only [List.headD_cons, List.tail_cons]
        convert hboth using 1
        omega
      · rw [if_neg hdue, if_neg hdue]
        obtain ⟨s₁, hemit, hgrows⟩ := emit_grows hspawn hroom checks burst
        have hroom₁ : s₁.particles.length ≤ s₁.maxCount := by
          rw [hgrows.length, hgrows.maxCount]
          omega
        obtain ⟨s₂, rest, hall, hlen, hothers⟩ := ih hrest (Nat.zero_le _) hroom₁
        rw [hemit]
        dsimp only [List.tail_cons]
        rw [hall]
        refine ⟨s₂, accumulator :: rest, rfl, congrArg Nat.succ hlen, ?_⟩
        have hboth := hfill hgrows hothers
        simpa using hboth

/-- What a step spawns: nothing but the particles, the draws, the accumulators and the burst
differ. -/
def Emits (n : Nat) (s e : Simulation) : Prop :=
  ∃ spawned prng diag left rest, spawned.length = n ∧ (∀ p ∈ spawned, p.age < p.life) ∧
    rest.length = s.emitterAccumulators.length ∧
    e = { s with
      particles := s.particles ++ spawned
      prng := prng
      cappedDiag := diag
      burst := 0
      spawnAccumulator := left
      emitterAccumulators := rest }

/-- How many particles a step spawns. -/
def Simulation.spawnable (s : Simulation) (h : ℚ) : Nat :=
  if s.component.any (·.emitters.isEmpty) then 0
  else min (s.requested h) (s.maxCount - s.particles.length)

/-- **Emission.** -/
theorem emission_ok (checks : Bool) (h : ℚ) {s : Simulation} (hs : s.Wf) :
    ∃ e, s.emission f checks h = .ok e ∧ Emits (s.spawnable h) s e := by
  have hquiet : ¬ (s.emitting = true ∨ 0 < s.burst) → s.spawnable h = 0 ∧ Emits 0 s s := by
    intro hnot
    obtain ⟨hemitting, hburst⟩ := not_or.mp hnot
    have hzero : s.burst = 0 := Nat.eq_zero_of_not_pos hburst
    have hdue : ∀ emitters accumulators, s.dueFrom h emitters accumulators = 0 := by
      intro emitters
      induction emitters with
      | nil => exact fun _ => rfl
      | cons emitter emitters ih =>
        intro accumulators
        simp [Simulation.dueFrom, ih, hemitting]
    have hrequested : s.requested h = 0 := by
      unfold Simulation.requested
      cases s.component <;> simp [hdue, hzero, hemitting]
    refine ⟨by simp [Simulation.spawnable, hrequested], [], s.prng, s.cappedDiag,
      s.spawnAccumulator, s.emitterAccumulators, rfl, List.forall_mem_nil _, rfl, ?_⟩
    rw [List.append_nil, ← hzero]
  unfold Simulation.emission
  cases hcomponent : s.component with
  | none =>
    dsimp only
    by_cases hemits : s.emitting = true ∨ 0 < s.burst
    · rw [if_pos hemits, Simulation.emitFlat]
      generalize hspawned : (if s.emitting = true then
        due s.spawnAccumulator (s.spawnRate * s.count * s.emissionRate * h)
        else (0, s.spawnAccumulator)) = spawned
      obtain ⟨e, hemit, spawned', prng, diag, hlen, halive, rfl⟩ := emit_grows
        (s := { s with spawnAccumulator := spawned.2, burst := 0 }) (spawnOne_grows (f := f))
        hs.room checks (saturatingAdd32 spawned.1 s.burst)
      refine ⟨_, hemit, spawned', prng, diag, spawned.2, s.emitterAccumulators, ?_, halive, rfl,
        rfl⟩
      have hsum : saturatingAdd32 spawned.1 s.burst = s.requested h := by
        rw [Simulation.requested, hcomponent, ← hspawned]
        split
        next =>
          rw [saturatingAdd32_due hs.burst, Nat.add_comm]
        next =>
          have hburst := hs.burst
          unfold maxParticles at hburst
          exact (Nat.min_eq_left (by omega)).trans (Nat.add_comm _ _)
      rw [hlen, hsum, Simulation.spawnable, hcomponent]
      rfl
    · rw [if_neg hemits]
      obtain ⟨hnone, hself⟩ := hquiet hemits
      exact ⟨s, rfl, hnone ▸ hself⟩
  | some component =>
    dsimp only
    rw [Simulation.emitComponent]
    by_cases hemits : s.emitting = true ∨ 0 < s.burst
    · have hlength : s.emitterAccumulators.length = component.emitters.length := by
        have haccumulators := hs.accumulators
        rw [hcomponent] at haccumulators
        exact haccumulators
      obtain ⟨e, rest, hall, hrest, spawned, prng, diag, hlen, halive, rfl⟩ := emitAll_grows
        (f := f) (s := { s with burst := 0 }) checks component h hlength hs.burst hs.room
      rw [if_pos hemits, hall]
      refine ⟨_, rfl, spawned, prng, diag, s.spawnAccumulator, rest, ?_, halive, hrest, rfl⟩
      have hsame : ({ s with burst := 0 } : Simulation).dueFrom h component.emitters
          s.emitterAccumulators = s.dueFrom h component.emitters s.emitterAccumulators := by
        apply dueFrom_congr <;> rfl
      rw [hlen, hsame, Simulation.spawnable, hcomponent, Simulation.requested, hcomponent]
      simp [List.isEmpty_iff]
    · rw [if_neg hemits]
      obtain ⟨hnone, hself⟩ := hquiet hemits
      exact ⟨s, rfl, hnone ▸ hself⟩

/-! ## Moving -/

/-- An operator moves a particle or changes how it looks, not its age or its life. -/
def KeepsAge (g : Particle → Particle) : Prop := ∀ p, (g p).age = p.age ∧ (g p).life = p.life

theorem applyControlPointAttract_keepsAge (anchor : Vec) (scale threshold h : ℚ) :
    KeepsAge (applyControlPointAttract f anchor scale threshold h) := by
  intro p
  unfold applyControlPointAttract
  dsimp only
  split <;> exact ⟨rfl, rfl⟩

theorem applyTurbulence_keepsAge (scale timeScale : ℚ) (runtime : Vec) (simTime h : ℚ) :
    KeepsAge (applyTurbulence f scale timeScale runtime simTime h) := by
  intro p
  unfold applyTurbulence
  dsimp only
  split <;> exact ⟨rfl, rfl⟩

def agesOf (particles : List Particle) : List (ℚ × ℚ) := particles.map fun p => (p.age, p.life)

theorem KeepsAge.agesOf {g : Particle → Particle} (h : KeepsAge g) (particles : List Particle) :
    agesOf (particles.map g) = agesOf particles := by
  rw [Motion.agesOf, Motion.agesOf, List.map_map]
  refine List.map_congr_left fun p _ => ?_
  simp [h p]

theorem agesOf_applyOperators (origin : Vec) (simTime h : ℚ) (operators : List Operator)
    (runtime : List Vec) (particles : List Particle) :
    agesOf (applyOperators f origin simTime h operators runtime particles) = agesOf particles := by
  induction operators generalizing runtime particles with
  | nil => rfl
  | cons operator operators ih =>
    cases operator with
    | controlPointAttract =>
      exact (ih _ _).trans ((applyControlPointAttract_keepsAge _ _ _ _).agesOf _)
    | turbulence => exact (ih _ _).trans ((applyTurbulence_keepsAge _ _ _ _ _).agesOf _)
    | _ =>
      refine (ih _ _).trans (KeepsAge.agesOf ?_ _)
      exact fun _ => ⟨rfl, rfl⟩

/-- Moving makes every particle older by a step. -/
theorem agesOf_advance (s : Simulation) (h : ℚ) (particles : List Particle) :
    agesOf (s.advance f h particles) = (agesOf particles).map fun a => (a.1 + h, a.2) := by
  unfold Simulation.advance
  cases s.component with
  | none => simp [agesOf, Particle.integrate]
  | some component =>
    rw [← agesOf_applyOperators (f := f) s.origin s.simTime h component.operators
      s.turbulenceRuntime particles]
    simp [agesOf, Particle.grow]

theorem length_advance (s : Simulation) (h : ℚ) (particles : List Particle) :
    (s.advance f h particles).length = particles.length := by
  simpa [agesOf] using congrArg List.length (agesOf_advance (f := f) s h particles)

theorem mem_advance {s : Simulation} {h : ℚ} {particles : List Particle} {p : Particle}
    (hp : p ∈ s.advance f h particles) :
    ∃ q ∈ particles, p.age = q.age + h ∧ p.life = q.life := by
  have hages := agesOf_advance (f := f) s h particles
  have hmem : (p.age, p.life) ∈ agesOf (s.advance f h particles) := List.mem_map_of_mem hp
  rw [hages] at hmem
  simp only [agesOf, List.mem_map, Prod.mk.injEq] at hmem
  obtain ⟨-, ⟨q, hq, rfl⟩, hage, hlife⟩ := hmem
  exact ⟨q, hq, hage.symm, hlife.symm⟩

/-! ## Steps -/

/-- A flat system that emits nothing. -/
def Simulation.Idle (s : Simulation) : Prop :=
  s.component = none ∧ ¬ (s.emitting = true ∨ 0 < s.burst)

/-- What a step leaves as it is. -/
structure Steps (s s' : Simulation) : Prop where
  emitting : s'.emitting = s.emitting
  burst : s'.burst = 0
  component : s'.component = s.component
  maxCount : s'.maxCount = s.maxCount
  accumulators : s'.emitterAccumulators.length = s.emitterAccumulators.length

theorem stepFixed_idle (checks : Bool) (h : ℚ) {s : Simulation} (hidle : s.Idle) :
    s.stepFixed f checks h = .ok { s with particles := retain s.particles } := by
  unfold Simulation.stepFixed
  rw [hidle.1]
  exact if_neg hidle.2

/-- **Step.**  A step spawns, and unless the system is idle it moves all particles. -/
theorem stepFixed_ok (checks : Bool) (h : ℚ) {s : Simulation} (hs : s.Wf) :
    ∃ e s', (s.emission f checks h = .ok e ∧ Emits (s.spawnable h) s e) ∧
      (s.stepFixed f checks h = .ok s' ∧ Steps s s') ∧
      (s.Idle → s'.particles = retain s.particles) ∧
      (¬ s.Idle → s'.particles = retain (s.advance f h e.particles)) := by
  obtain ⟨e, hemission, hemits⟩ := emission_ok (f := f) checks h hs
  by_cases hidle : s.Idle
  · refine ⟨e, _, ⟨hemission, hemits⟩, ⟨stepFixed_idle checks h hidle, ?_⟩, fun _ => rfl,
      fun hnot => absurd hidle hnot⟩
    exact ⟨rfl, Nat.eq_zero_of_not_pos fun hpos => hidle.2 (.inr hpos), rfl, rfl, rfl⟩
  · obtain ⟨spawned, prng, diag, left, rest, hlen, halive, hrest, rfl⟩ := hemits
    have hstep : s.stepFixed f checks h = .ok { s with
        simTime := if s.component = none then s.simTime else s.simTime + h
        particles := retain (s.advance f h (s.particles ++ spawned))
        prng := prng
        cappedDiag := diag
        burst := 0
        spawnAccumulator := left
        emitterAccumulators := rest } := by
      unfold Simulation.emission at hemission
      unfold Simulation.stepFixed Simulation.advance
      cases hcomponent : s.component with
      | none =>
        have hactive : s.emitting = true ∨ 0 < s.burst := by
          by_contra hnot
          exact hidle ⟨hcomponent, hnot⟩
        rw [hcomponent] at hemission
        dsimp only at hemission ⊢
        rw [if_pos hactive] at hemission ⊢
        rw [hemission]
        simp
      | some component =>
        rw [hcomponent] at hemission
        dsimp only [Simulation.stepFixedComponent] at hemission ⊢
        rw [hemission]
        simp
    exact ⟨_, _, ⟨hemission, spawned, prng, diag, left, rest, hlen, halive, hrest, rfl⟩,
      ⟨hstep, rfl, rfl, rfl, rfl, hrest⟩, fun h => absurd h hidle, fun _ => rfl⟩

theorem retain_eq_self {particles : List Particle} (h : ∀ p ∈ particles, p.age < p.life) :
    retain particles = particles :=
  List.filter_eq_self.mpr fun p hp => decide_eq_true (h p hp)

theorem Simulation.Wf.step {checks : Bool} {h : ℚ} {s s' : Simulation} (hs : s.Wf)
    (hstep : s.stepFixed f checks h = .ok s') : s'.Wf := by
  obtain ⟨e, s₁, ⟨-, spawned, prng, diag, left, rest, hlen, -, -, rfl⟩, ⟨hok, hsame⟩, hidle,
    hmoves⟩ := stepFixed_ok (f := f) checks h hs
  obtain rfl := Except.ok.inj (hok.symm.trans hstep)
  have hparticles : ∃ particles, s₁.particles = retain particles ∧
      particles.length ≤ s.maxCount := by
    by_cases h : s.Idle
    · exact ⟨_, hidle h, hs.room⟩
    · refine ⟨_, hmoves h, ?_⟩
      have hroom := hs.room
      rw [length_advance, List.length_append, hlen, Simulation.spawnable]
      split <;> omega
  obtain ⟨particles, hretain, hle⟩ := hparticles
  refine ⟨?_, ?_, hsame.maxCount ▸ hs.cap, hsame.burst ▸ Nat.zero_le _, fun p hp => ?_⟩
  · rw [hsame.accumulators, hsame.component]
    exact hs.accumulators
  · rw [hretain, hsame.maxCount]
    exact (List.length_filter_le _ _).trans hle
  · rw [hretain] at hp
    exact of_decide_eq_true (List.mem_filter.mp hp).2

/-- **A step.**  It moves all particles and spawns what was requested, exactly when the system
is active. -/
theorem moves_iff (checks : Bool) {h : ℚ} (hpos : 0 < h) {s : Simulation} (hs : s.Wf) :
    s.Moves f checks h ↔ s.Active := by
  obtain ⟨e, s', ⟨hemission, spawned, prng, diag, left, rest, hlen, -, -, he⟩, ⟨hok, -⟩, hidle,
    hmoves⟩ := stepFixed_ok (f := f) checks h hs
  have hroom := hs.room
  have hparts : s.Moves f checks h ↔
      s.particles.length + spawned.length = min (s.particles.length + s.requested h) s.maxCount ∧
        s'.particles = retain (s.advance f h (s.particles ++ spawned)) := by
    constructor
    · intro hall
      obtain ⟨⟨-, hcount⟩, hmoved⟩ := hall e s' hemission hok
      rw [he] at hcount hmoved
      exact ⟨List.length_append.symm.trans hcount, hmoved⟩
    · rintro ⟨hcount, hmoved⟩ e₁ s₁ hemission₁ hok₁
      obtain rfl := Except.ok.inj (hemission.symm.trans hemission₁)
      obtain rfl := Except.ok.inj (hok.symm.trans hok₁)
      rw [he]
      exact ⟨⟨List.prefix_append _ _, List.length_append.trans hcount⟩, hmoved⟩
  rw [hparts, hlen, Simulation.Active, Simulation.spawnable]
  cases hcomponent : s.component with
  | some component =>
    have hnot : ¬ s.Idle := fun hidle => nomatch hcomponent.symm.trans hidle.1
    have hmoved := hmoves hnot
    rw [he] at hmoved
    rw [and_iff_left hmoved, Simulation.requested, hcomponent]
    dsimp only [Option.any_some]
    by_cases hnone : component.emitters = []
    · simp only [hnone, List.isEmpty_nil, if_true, Simulation.dueFrom, true_imp_iff]
      omega
    · rw [if_neg (by simpa using hnone)]
      exact iff_of_true (by omega) fun h => absurd h hnone
  | none =>
    have hcount : s.particles.length + min (s.requested h) (s.maxCount - s.particles.length) =
        min (s.particles.length + s.requested h) s.maxCount := by omega
    dsimp only [Option.any_none]
    rw [if_neg Bool.false_ne_true, and_iff_right hcount, ← or_assoc]
    by_cases hactive : s.emitting = true ∨ 0 < s.burst
    · have hmoved := hmoves fun hidle => hidle.2 hactive
      rw [he] at hmoved
      exact iff_of_true hmoved (.inl hactive)
    · have hquiet : s.Idle := ⟨hcomponent, hactive⟩
      obtain ⟨hemitting, hburst⟩ := not_or.mp hactive
      have hrequested : s.requested h = 0 := by
        simp [Simulation.requested, hcomponent, hemitting, Nat.eq_zero_of_not_pos hburst]
      have hspawned : spawned = [] := by
        rw [Simulation.spawnable, hcomponent, hrequested] at hlen
        simpa using hlen
      rw [or_iff_right hactive, hidle hquiet, retain_eq_self hs.alive, hspawned, List.append_nil,
        Simulation.advance, hcomponent]
      constructor
      · intro hsame
        have hlength := congrArg List.length hsame
        have hall : retain (s.particles.map (·.integrate s.gravity h)) =
            s.particles.map (·.integrate s.gravity h) := by
          refine List.filter_eq_self.mpr (List.length_filter_eq_length_iff.mp ?_)
          rw [List.length_map]
          exact hlength.symm
        rw [hall] at hsame
        cases hparticles : s.particles with
        | nil => rfl
        | cons p particles =>
          rw [hparticles, List.map_cons] at hsame
          have hage := congrArg Particle.age (List.cons.inj hsame).1
          have hgrown : p.age = p.age + h := hage
          linarith
      · rintro hnone
        rw [hnone]
        rfl

/-! ## Fading -/

section Elementary

variable (f)

/-- Nothing is emitted, and no particle lives on for longer than `time`; the particles of a
pending burst count as well. -/
def Simulation.Fading (checks : Bool) (h time : ℚ) (s : Simulation) : Prop :=
  s.emitting = false ∧
    ∀ e, s.emission f checks h = .ok e → ∀ p ∈ e.particles, p.life - p.age ≤ time

end Elementary

theorem emission_quiet (checks : Bool) (h : ℚ) {s : Simulation}
    (hquiet : ¬ (s.emitting = true ∨ 0 < s.burst)) : s.emission f checks h = .ok s := by
  unfold Simulation.emission
  cases s.component with
  | none => exact if_neg hquiet
  | some component => exact if_neg hquiet

theorem Simulation.Fading.step {checks : Bool} {h time : ℚ} {s s' : Simulation} (hs : s.Wf)
    (hactive : s.Active) (hfading : s.Fading f checks h time)
    (hstep : s.stepFixed f checks h = .ok s') : s'.Fading f checks h (time - h) := by
  obtain ⟨e, s₁, ⟨hemission, -⟩, ⟨hok, hsame⟩, hidle, hmoves⟩ := stepFixed_ok (f := f) checks h hs
  obtain rfl := Except.ok.inj (hok.symm.trans hstep)
  refine ⟨hsame.emitting.trans hfading.1, fun e' hemission' p hp => ?_⟩
  have hquiet : ¬ (s₁.emitting = true ∨ 0 < s₁.burst) := by
    rw [hsame.emitting, hfading.1, hsame.burst]
    simp
  obtain rfl := Except.ok.inj ((emission_quiet checks h hquiet).symm.trans hemission')
  by_cases hstill : s.Idle
  · -- a flat system that is idle is active only without particles
    have hnone : s.particles = [] := by
      rw [Simulation.Active, hstill.1, ← or_assoc] at hactive
      exact hactive.resolve_left hstill.2
    rw [hidle hstill, hnone] at hp
    exact absurd hp List.not_mem_nil
  · rw [hmoves hstill] at hp
    obtain ⟨q, hq, hage, hlife⟩ := mem_advance (List.mem_filter.mp hp).1
    have hbound := hfading.2 e hemission q hq
    rw [hage, hlife]
    linarith

theorem Simulation.Fading.ended {checks : Bool} {h time : ℚ} {s : Simulation} (hs : s.Wf)
    (hfading : s.Fading f checks h time) (htime : time ≤ 0) : s.isPlaying = false := by
  obtain ⟨e, hemission, spawned, prng, diag, left, rest, -, -, -, he⟩ :=
    emission_ok (f := f) checks h hs
  have hnone : s.particles = [] := by
    refine List.eq_nil_iff_forall_not_mem.mpr fun p hp => ?_
    have hmem : p ∈ e.particles := by
      rw [he]
      exact List.mem_append_left _ hp
    have hbound := hfading.2 e hemission p hmem
    have halive := hs.alive p hp
    linarith
  simp [Simulation.isPlaying, hfading.1, hnone]

/-! ## Runs -/

inductive Input
  | simulate (dt : ℚ)
  | play
  | pause
  | stop
  | emitParticles (count : UInt32)
  deriving DecidableEq, Repr

/-- Neither `play` nor `emitParticles`. -/
def Input.Quiet : Input → Prop
  | .simulate _ | .pause | .stop => True
  | .play | .emitParticles _ => False

/-- How many fixed steps a frame runs. -/
def System.steps (s : System) (dt : ℚ) : Nat := FixedStep.count fixedStep (s.accumulated dt)

section Elementary

variable (f) (checks : Bool)

/-- A panic ends the renderer; the system is as it was. -/
def step (s : System) : Input → System
  | .simulate dt =>
    match s.simulate f checks dt with
    | .ok (s, _) => s
    | .error _ => s
  | .play => s.play
  | .pause => s.pause
  | .stop => s.stop
  | .emitParticles count => s.emitParticles count

/-- The fixed steps of a run. -/
def stepCount (s : System) : List Input → Nat
  | [] => 0
  | .simulate dt :: inputs => s.steps dt + stepCount (step f checks s (.simulate dt)) inputs
  | i :: inputs => stepCount (step f checks s i) inputs

/-- Every fixed step of a frame starts where `C` holds. -/
def EachStep (C : Simulation → Prop) (s : System) : Input → Prop
  | .simulate dt => ∀ n < s.steps dt, ∀ b,
    FixedStep.times (Simulation.stepFixed f checks fixedStep) n s.toSimulation = .ok b → C b
  | _ => True

/-- The same system with empty accumulators. -/
def Simulation.emptied (s : Simulation) : Simulation :=
  { s with spawnAccumulator := 0, emitterAccumulators := s.emitterAccumulators.map fun _ => 0 }

/-- After a stop and a play the fixed steps spawn what they would with empty accumulators. -/
def System.Restarts (s : System) : Prop :=
  ∀ n, (FixedStep.times (Simulation.stepFixed f checks fixedStep) n
      s.stop.play.toSimulation).map (·.particles) =
    (FixedStep.times (Simulation.stepFixed f checks fixedStep) n
      s.stop.play.toSimulation.emptied).map (·.particles)

end Elementary

/-- Where a stop comes, `P` holds. -/
def OnStop (P : System → Prop) (s : System) : Input → Prop
  | .stop => P s
  | _ => True

def System.Cleared (s : System) : Prop := ∀ a ∈ s.emitterAccumulators, a = 0

theorem times_wf {checks : Bool} {n : Nat} {s b : Simulation} (hs : s.Wf)
    (hb : FixedStep.times (Simulation.stepFixed f checks fixedStep) n s = .ok b) : b.Wf := by
  obtain ⟨b', hok, hwf⟩ := FixedStep.times_invariant (I := Simulation.Wf)
    (fun s hs =>
      have ⟨_, s', _, ⟨hstep, _⟩, _⟩ := stepFixed_ok (f := f) checks fixedStep hs
      ⟨s', hstep, hs.step hstep⟩) n hs
  obtain rfl := Except.ok.inj (hok.symm.trans hb)
  exact hwf

/-- **Frames.**  A frame is its fixed steps. -/
theorem simulate_ok (checks : Bool) {s : System} (hs : s.toSimulation.Wf) (dt : ℚ) :
    ∃ b, FixedStep.times (Simulation.stepFixed f checks fixedStep) (s.steps dt) s.toSimulation =
        .ok b ∧
      s.simulate f checks dt = .ok ({ s with
        toSimulation := b
        simAccumulator := s.accumulated dt - s.steps dt * fixedStep },
        fixedStep ≤ s.accumulated dt) := by
  obtain ⟨b, hok, -⟩ := FixedStep.times_invariant (I := Simulation.Wf)
    (fun s hs =>
      have ⟨_, s', _, ⟨hstep, _⟩, _⟩ := stepFixed_ok (f := f) checks fixedStep hs
      ⟨s', hstep, hs.step hstep⟩) (s.steps dt) hs
  refine ⟨b, hok, ?_⟩
  unfold System.simulate
  dsimp only
  rw [FixedStep.loop_eq fixedStep_pos]
  unfold System.steps at hok ⊢
  rw [hok]
  rfl

theorem wf_step (checks : Bool) {s : System} (hs : s.toSimulation.Wf) (i : Input) :
    (step f checks s i).toSimulation.Wf := by
  cases i with
  | simulate dt =>
    obtain ⟨b, htimes, hsimulate⟩ := simulate_ok (f := f) checks hs dt
    rw [step, hsimulate]
    exact times_wf hs htimes
  | play => exact ⟨hs.accumulators, hs.room, hs.cap, hs.burst, hs.alive⟩
  | pause => exact ⟨hs.accumulators, hs.room, hs.cap, hs.burst, hs.alive⟩
  | stop => exact ⟨hs.accumulators, Nat.zero_le _, hs.cap, Nat.zero_le _, List.forall_mem_nil _⟩
  | emitParticles count =>
    exact ⟨hs.accumulators, hs.room, hs.cap, Nat.min_le_right _ _, hs.alive⟩

/-- All fixed steps of the run move the particles as they should, exactly when they start from
active systems. -/
theorem moves_run_iff (checks : Bool) {s : System} (hs : s.toSimulation.Wf)
    (inputs : List Input) :
    Runs.Along (step f checks) (EachStep f checks (Simulation.Moves f checks fixedStep)) s
        inputs ↔
      Runs.Along (step f checks) (EachStep f checks Simulation.Active) s inputs := by
  refine Runs.along_congr (I := fun s : System => s.toSimulation.Wf) (C := fun _ _ => True)
    (fun s i hs _ _ => wf_step checks hs i) (fun s i hs _ => ?_) hs
    (Runs.along_of_forall (fun _ _ => trivial) _ _)
  cases i with
  | simulate dt =>
    refine forall₂_congr fun n _ => forall₂_congr fun b hb => ?_
    exact moves_iff checks fixedStep_pos (times_wf hs hb)
  | _ => exact Iff.rfl

theorem Simulation.Fading.times {checks : Bool} {time : ℚ} {n : Nat} {s b : Simulation}
    (hs : s.Wf) (hfading : s.Fading f checks fixedStep time)
    (hactive : ∀ k < n, ∀ b, FixedStep.times (Simulation.stepFixed f checks fixedStep) k s =
      .ok b → b.Active)
    (hb : FixedStep.times (Simulation.stepFixed f checks fixedStep) n s = .ok b) :
    b.Fading f checks fixedStep (time - n * fixedStep) := by
  induction n generalizing b with
  | zero =>
    obtain rfl := Except.ok.inj hb
    simpa using hfading
  | succ n ih =>
    rw [FixedStep.times_succ] at hb
    cases hn : FixedStep.times (Simulation.stepFixed f checks fixedStep) n s with
    | error e =>
      rw [hn] at hb
      exact nomatch hb
    | ok c =>
      rw [hn] at hb
      have hc := ih (fun k hk => hactive k (Nat.lt_succ_of_lt hk)) hn
      have hnext := hc.step (times_wf hs hn) (hactive n (Nat.lt_succ_self n) c hn) hb
      rw [show time - (n + 1 : ℕ) * fixedStep = time - n * fixedStep - fixedStep by
        push_cast
        ring]
      exact hnext

/-- What a run without `play` and `emitParticles` leaves of the remaining time. -/
theorem Simulation.Fading.run {checks : Bool} {time : ℚ} {s : System} {inputs : List Input}
    (hs : s.toSimulation.Wf) (hfading : s.toSimulation.Fading f checks fixedStep time)
    (hquiet : ∀ i ∈ inputs, i.Quiet)
    (hactive : Runs.Along (Motion.step f checks) (EachStep f checks Simulation.Active) s inputs) :
    (Runs.run (Motion.step f checks) s inputs).toSimulation.Fading f checks fixedStep
      (time - stepCount f checks s inputs * fixedStep) := by
  induction inputs generalizing s time with
  | nil => simpa [stepCount] using hfading
  | cons i inputs ih =>
    obtain ⟨hi, hrest⟩ := List.forall_mem_cons.mp hquiet
    obtain ⟨hactive, halong⟩ := hactive
    have hnext := wf_step (f := f) checks hs i
    rw [Runs.run_cons]
    cases i with
    | simulate dt =>
      obtain ⟨b, htimes, hsimulate⟩ := simulate_ok (f := f) checks hs dt
      have hstep : (Motion.step f checks s (.simulate dt)).toSimulation = b := by
        rw [Motion.step, hsimulate]
      have hb := hfading.times hs hactive htimes
      rw [← hstep] at hb
      have hall := ih hnext hb hrest halong
      rw [stepCount]
      push_cast
      rw [add_mul, ← sub_sub]
      exact hall
    | play => exact absurd hi id
    | pause =>
      refine ih hnext ⟨rfl, fun e he => hfading.2 e ?_⟩ hrest halong
      have hsame : (Motion.step f checks s .pause).toSimulation = s.toSimulation := by
        rw [Motion.step, System.pause, ← hfading.1]
      rw [← hsame]
      exact he
    | stop =>
      refine ih hnext ⟨rfl, fun e he p hp => ?_⟩ hrest halong
      have hstopped : ¬ ((Motion.step f checks s .stop).emitting = true ∨
          0 < (Motion.step f checks s .stop).burst) := by simp [Motion.step, System.stop]
      obtain rfl := Except.ok.inj ((emission_quiet checks fixedStep hstopped).symm.trans he)
      exact absurd hp List.not_mem_nil
    | emitParticles count => exact absurd hi id

theorem Cleared.restarts (checks : Bool) {s : System} (h : s.Cleared) : s.Restarts f checks := by
  intro n
  have hsame : s.stop.play.toSimulation.emptied = s.stop.play.toSimulation := by
    have hmap : s.emitterAccumulators.map (fun _ => (0 : ℚ)) = s.emitterAccumulators := by
      refine (List.map_congr_left fun a ha => ?_).trans (List.map_id _)
      exact (h a ha).symm
    simp [Simulation.emptied, System.play, System.stop, hmap]
  rw [hsame]

/-- **Playback.**  In every run all fixed steps move and age the particles and spawn what was
requested as far as there is a slot, exactly when they all start from active systems.  Then a
system that was paused or stopped plays no longer once the largest remaining life is over; and
a stop restarts the spawning where the accumulators of the emitters are empty. -/
theorem playback (f : Elementary) (checks : Bool) {s : System} (hs : s.toSimulation.Wf)
    (inputs : List Input) :
    (Runs.Along (step f checks) (EachStep f checks (Simulation.Moves f checks fixedStep)) s
        inputs ↔
      Runs.Along (step f checks) (EachStep f checks Simulation.Active) s inputs) ∧
    (Runs.Along (step f checks) (EachStep f checks Simulation.Active) s inputs →
      ∀ done rest, inputs = done ++ rest →
        (Runs.run (step f checks) s done).toSimulation.Fading f checks fixedStep
          (stepCount f checks (Runs.run (step f checks) s done) rest * fixedStep) →
        (∀ i ∈ rest, i.Quiet) → (Runs.run (step f checks) s inputs).isPlaying = false) ∧
    (Runs.Along (step f checks) (OnStop System.Cleared) s inputs →
      Runs.Along (step f checks) (OnStop (System.Restarts f checks)) s inputs) := by
  refine ⟨moves_run_iff checks hs inputs, ?_, Runs.Along.mono fun s i hi => ?_⟩
  · rintro hactive done rest rfl hfading hquiet
    have hdone : (Runs.run (step f checks) s done).toSimulation.Wf :=
      Runs.invariant_run_all (I := fun s : System => s.toSimulation.Wf)
        (fun s i hs => wf_step checks hs i) hs done
    have hend := hfading.run hdone hquiet ((Runs.along_append s done rest).mp hactive).2
    rw [← Runs.run_append] at hend
    refine hend.ended ?_ (le_of_eq (sub_self _))
    exact Runs.invariant_run_all (I := fun s : System => s.toSimulation.Wf)
      (fun s i hs => wf_step checks hs i) hs _
  · cases i with
    | stop => exact Cleared.restarts checks hi
    | _ => trivial

/-! ### Systems that stand still, lose a burst, or spawn early -/

/-- Functions that are right at zero. -/
def plain : Elementary := ⟨fun _ => 1, fun _ => 0, fun q => q, fun q _ => q⟩

def specOf (component : Option ComponentModel) : ParticleSpec where
  origin := (0, 0)
  spawnRate := 0
  life := 1
  speedMin := 1
  speedMax := 1
  direction := 0
  spread := 0
  gravity := (0, 0)
  maxCount := defaultParticleMaxCount
  instanceCount := 1
  instanceSpeed := 1
  instanceLifetime := 1
  instanceSize := 1
  instanceAlpha := 1
  instanceColorn := 1
  instanceRate := 1
  component := component
  maxCount_le := by decide

/-- A frame of one step. -/
theorem step_simulate (checks : Bool) {s : System} {b : Simulation} (hs : s.toSimulation.Wf)
    (hleft : s.simAccumulator = 0) (hrate : s.rate = 1)
    (hstep : s.stepFixed f checks fixedStep = .ok b) :
    step f checks s (.simulate fixedStep) = { s with toSimulation := b, simAccumulator := 0 } := by
  have htime : s.accumulated fixedStep = fixedStep := by
    rw [System.accumulated, hleft, hrate]
    norm_num [clamp, maxFrameDt, maxAccumulatedSimSeconds, fixedStep]
  have hsteps : s.steps fixedStep = 1 := by
    rw [System.steps, htime, FixedStep.count, div_self fixedStep_pos.ne', Nat.floor_one]
  obtain ⟨b', htimes, hsimulate⟩ := simulate_ok (f := f) checks hs fixedStep
  rw [hsteps, FixedStep.times, hstep] at htimes
  obtain rfl := Except.ok.inj htimes
  rw [step, hsimulate, htime, hsteps]
  simp

def flat : System := (specOf none).toSystem 0

theorem wf_flat : flat.toSimulation.Wf := Simulation.wf_toSystem (specOf none) 0

def stopped : List Input := [.emitParticles 1, .simulate fixedStep, .stop, .play, .simulate 1]

theorem playback_stopped :
    flat.toSimulation.Wf ∧
    (Runs.Along (step plain true) (EachStep plain true (Simulation.Moves plain true fixedStep))
        flat stopped ↔
      Runs.Along (step plain true) (EachStep plain true Simulation.Active) flat stopped) ∧
    (Runs.Along (step plain true) (EachStep plain true Simulation.Active) flat stopped →
      ∀ done rest, stopped = done ++ rest →
        (Runs.run (step plain true) flat done).toSimulation.Fading plain true fixedStep
          (stepCount plain true (Runs.run (step plain true) flat done) rest * fixedStep) →
        (∀ i ∈ rest, i.Quiet) → (Runs.run (step plain true) flat stopped).isPlaying = false) ∧
    (Runs.Along (step plain true) (OnStop System.Cleared) flat stopped →
      Runs.Along (step plain true) (OnStop (System.Restarts plain true)) flat stopped) :=
  ⟨wf_flat, playback plain true wf_flat stopped⟩

/-- A paused flat system with one particle. -/
def pausedFlat : System :=
  { flat with
    emitting := false
    particles := [{ Particle.default with x := fixedStep, vx := 1, age := fixedStep, life := 1 }] }

/-- One particle is spawned, and the system is paused. -/
theorem run_paused :
    Runs.run (step plain true) flat [.emitParticles 1, .simulate fixedStep, .pause] =
      pausedFlat := by
  have hwf : (flat.emitParticles 1).toSimulation.Wf :=
    wf_step (f := plain) true wf_flat (.emitParticles 1)
  have hstep : (flat.emitParticles 1).stepFixed plain true fixedStep =
      .ok { pausedFlat.toSimulation with emitting := true } := by decide +kernel
  rw [Runs.run_cons, step, Runs.run_cons, step_simulate true hwf rfl rfl hstep]
  rfl

theorem wf_pausedFlat : pausedFlat.toSimulation.Wf := by
  rw [← run_paused]
  exact Runs.invariant_run_all (I := fun s : System => s.toSimulation.Wf)
    (fun s i hs => wf_step true hs i) wf_flat _

theorem idle_pausedFlat : pausedFlat.toSimulation.Idle := ⟨rfl, by decide⟩

/-- An idle system stays as it is. -/
theorem times_idle (checks : Bool) {h : ℚ} {s : Simulation} (hidle : s.Idle)
    (halive : ∀ p ∈ s.particles, p.age < p.life) (n : Nat) :
    FixedStep.times (Simulation.stepFixed f checks h) n s = .ok s := by
  induction n with
  | zero => rfl
  | succ n ih =>
    rw [FixedStep.times, stepFixed_idle checks h hidle, retain_eq_self halive]
    exact ih

theorem run_idle (n : Nat) {s : System} (hs : s.toSimulation = pausedFlat.toSimulation) :
    (Runs.run (step plain true) s (List.replicate n (.simulate 1))).toSimulation =
      pausedFlat.toSimulation := by
  induction n generalizing s with
  | zero => exact hs
  | succ n ih =>
    rw [List.replicate_succ, Runs.run_cons]
    refine ih ?_
    obtain ⟨b, htimes, hsimulate⟩ := simulate_ok (f := plain) true (hs ▸ wf_pausedFlat) 1
    rw [hs, times_idle true idle_pausedFlat wf_pausedFlat.alive] at htimes
    rw [step, hsimulate]
    exact (Except.ok.inj htimes).symm

/-- A component system without emitters. -/
def bare : System := (specOf (some ⟨[], [], []⟩)).toSystem 0

/-- An emitter that is due every second step. -/
def halfRate : System :=
  (specOf (some ⟨[.box 30 (0, 0) (1, 1) (0, 0) (0, 0)], [], []⟩)).toSystem 0

theorem wf_bare : bare.toSimulation.Wf := Simulation.wf_toSystem _ 0

theorem wf_halfRate : halfRate.toSimulation.Wf := Simulation.wf_toSystem _ 0

theorem steps_pos {s : System} (hleft : s.simAccumulator = 0) (hrate : s.rate = 1) :
    0 < s.steps fixedStep := by
  rw [System.steps, System.accumulated, hleft, hrate, FixedStep.count]
  norm_num [clamp, maxFrameDt, maxAccumulatedSimSeconds, fixedStep]

/-- After a step the emitter is half due, also after a stop. -/
theorem stop_halfRate :
    ¬ Runs.Along (step plain true) (OnStop (System.Restarts plain true)) halfRate
      [.simulate fixedStep, .stop] := by
  intro h
  have hstep : halfRate.stepFixed plain true fixedStep =
      .ok { halfRate.toSimulation with
        emitterAccumulators := [1 / 2], simTime := fixedStep } := by decide +kernel
  have hstop := h.2.1
  rw [step_simulate true wf_halfRate rfl rfl hstep] at hstop
  exact absurd (hstop 1) (by decide +kernel)

/-- A paused system that is still playing an hour after its last particle should have died, a
burst that is lost although there is room, and a spawn that is early after a stop. -/
theorem playback_fails :
    (¬ Runs.Along (step plain true) (EachStep plain true (Simulation.Moves plain true fixedStep))
        flat [.emitParticles 1, .simulate fixedStep, .pause, .simulate fixedStep] ∧
      pausedFlat.toSimulation.Fading plain true fixedStep 1 ∧
      (Runs.run (step plain true) pausedFlat (List.replicate 3600 (.simulate 1))).isPlaying =
        true) ∧
    ¬ Runs.Along (step plain true) (EachStep plain true (Simulation.Moves plain true fixedStep))
        bare [.emitParticles 1, .simulate fixedStep] ∧
    ¬ Runs.Along (step plain true) (OnStop (System.Restarts plain true)) halfRate
        [.simulate fixedStep, .stop] := by
  refine ⟨⟨fun h => ?_, ⟨rfl, fun e he p hp => ?_⟩, ?_⟩, fun h => ?_, stop_halfRate⟩
  · rw [moves_run_iff true wf_flat] at h
    have hlast := ((Runs.along_append flat
      ([.emitParticles 1, .simulate fixedStep, .pause] : List Input)
      [.simulate fixedStep]).mp h).2.1
    rw [run_paused] at hlast
    have hactive : pausedFlat.emitting = true ∨ 0 < pausedFlat.burst ∨
        pausedFlat.particles = [] := hlast 0 (steps_pos rfl rfl) _ rfl
    exact absurd hactive (by decide)
  · obtain rfl := Except.ok.inj ((emission_quiet true fixedStep idle_pausedFlat.2).symm.trans he)
    obtain rfl := List.mem_singleton.mp hp
    decide +kernel
  · rw [Simulation.isPlaying, run_idle 3600 rfl]
    rfl
  · rw [moves_run_iff true wf_bare] at h
    exact absurd (h.2.1 0 (steps_pos rfl rfl) _ rfl rfl) (by decide)

end Kwe.Particles.Motion

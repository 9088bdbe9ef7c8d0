import Kwe.Foundation.FixedStep

/-!
Particle systems of a scene: spawning and ageing in fixed steps, for the flat
model and for the component model, and what a script may write to them.

The arithmetic is exact.  Of a particle its age and its life are kept, of a
system what decides these; where particles are and how they look is left out,
but the random draws that this takes are made.  `checks` tells a build that
panics when a subtraction underflows from one that wraps around.
-/

namespace Kwe.Particles

open Foundation

def maxParticles : Nat := 4096

def fixedStep : ℚ := 1 / 60

def maxFrameDt : ℚ := 1

def maxAccumulatedSimSeconds : ℚ := 1

def maxSpawnAccumulator : ℚ := 65536

def defaultParticleMaxCount : Nat := 1000

/-- The `f32` nearest to a full turn. -/
def tau : ℚ := 13176795 / 2097152

/-! ## Numbers -/

/-- A floating-point argument. -/
inductive F64
  | nan
  | inf (negative : Bool)
  | finite (q : ℚ)
  deriving DecidableEq, Repr

def clamp (lo hi q : ℚ) : ℚ := max lo (min q hi)

namespace F64

/-- `clamp` of a number, where infinities are beyond the bounds. -/
def clamp (lo hi : ℚ) : F64 → Option ℚ
  | .nan => none
  | .inf true => some lo
  | .inf false => some hi
  | .finite q => some (Particles.clamp lo hi q)

/-- A finite value within bounds, else a default. -/
def finiteOr (default lo hi : ℚ) : F64 → ℚ
  | .finite q => Particles.clamp lo hi q
  | _ => default

end F64

def clampSpawnRate (value : F64) : ℚ := value.finiteOr 10 0 4096

def clampLife (value : F64) : ℚ := value.finiteOr 1 (1 / 10) 60

def clampSpeed (value : F64) : ℚ := value.finiteOr 0 0 1000000

def clampSpread (value : F64) : ℚ := value.finiteOr 0 0 tau

def clampInstanceFactor (value : F64) (hi : ℚ) : ℚ := value.finiteOr 1 0 hi

def clampMaxCount (value : Nat) : Nat := max 1 (min value maxParticles)

/-- The raw count of a script's write. -/
def rawMaxCount : F64 → Nat
  | .finite q => if 0 ≤ q ∧ q ≤ 2 ^ 32 - 1 then ⌊q⌋₊ else 1
  | _ => 1

/-- A cast to `u32`, which saturates. -/
def toU32 (q : ℚ) : Nat := min ⌊q⌋₊ (2 ^ 32 - 1)

def saturatingAdd32 (a b : Nat) : Nat := min (a + b) (2 ^ 32 - 1)

/-! ## Random draws -/

abbrev SplitMix64 := UInt64

def nextU64 (state : SplitMix64) : UInt64 × SplitMix64 :=
  let state := state + 0x9E3779B97F4A7C15
  let z := (state ^^^ (state >>> 30)) * 0xBF58476D1CE4E5B9
  let z := (z ^^^ (z >>> 27)) * 0x94D049BB133111EB
  (z ^^^ (z >>> 31), state)

def nextF32 (state : SplitMix64) : ℚ × SplitMix64 :=
  let draw := nextU64 state
  ((draw.1 >>> 40).toNat / 2 ^ 24, draw.2)

def uniform (state : SplitMix64) (lo hi : ℚ) : ℚ × SplitMix64 :=
  if lo < hi then
    let draw := nextF32 state
    (lo + (hi - lo) * draw.1, draw.2)
  else (lo, state)

/-! ## Systems -/

structure Particle where
  age : ℚ
  life : ℚ
  deriving DecidableEq, Repr

inductive Emitter
  | box (rate : ℚ) (distanceMin distanceMax : ℚ × ℚ)
  | sphere (rate distanceMin distanceMax speedMin speedMax : ℚ)
  deriving DecidableEq, Repr

def Emitter.rate : Emitter → ℚ
  | .box rate _ _ => rate
  | .sphere rate _ _ _ _ => rate

inductive Initializer
  | lifetimeRandom (min max : ℚ)
  | sizeRandom
  | alphaRandom (min max : ℚ)
  | velocityRandom (min max : ℚ × ℚ)
  | colorRandom (min max : ℚ × ℚ × ℚ)
  deriving DecidableEq, Repr

/-- The operators; those that draw nothing are alike here. -/
inductive Operator
  | oscillate (freqMin freqMax phaseMin phaseMax : ℚ)
  | turbulence (speedMin speedMax phaseMin phaseMax : ℚ)
  | other
  deriving DecidableEq, Repr

structure ComponentModel where
  emitters : List Emitter
  initializers : List Initializer
  operators : List Operator
  deriving DecidableEq, Repr

/-- A parsed particle system; the parser bounds its count. -/
structure ParticleSpec where
  spawnRate : ℚ
  life : ℚ
  speedMin : ℚ
  speedMax : ℚ
  spread : ℚ
  instanceCount : ℚ
  instanceRate : ℚ
  instanceLifetime : ℚ
  maxCount : Nat
  component : Option ComponentModel
  maxCount_le : maxCount ≤ maxParticles

structure System where
  spawnRate : ℚ
  life : ℚ
  speedMin : ℚ
  speedMax : ℚ
  spread : ℚ
  count : ℚ
  lifetime : ℚ
  rate : ℚ
  emissionRate : ℚ
  maxCount : Nat
  emitting : Bool
  particles : List Particle
  spawnAccumulator : ℚ
  /-- Without a value once a frame's length was not a number. -/
  simAccumulator : Option ℚ
  burst : Nat
  prng : SplitMix64
  component : Option ComponentModel
  emitterAccumulators : List ℚ
  deriving DecidableEq, Repr

/-- The draws of the turbulence operators. -/
def drawTurbulence (state : SplitMix64) : List Operator → SplitMix64
  | [] => state
  | .turbulence speedMin speedMax phaseMin phaseMax :: operators =>
    let state := (uniform state phaseMin phaseMax).2
    drawTurbulence (uniform state speedMin speedMax).2 operators
  | _ :: operators => drawTurbulence state operators

def ParticleSpec.toSystem (spec : ParticleSpec) (systemIndex : Nat) : System where
  spawnRate := spec.spawnRate
  life := spec.life
  speedMin := spec.speedMin
  speedMax := spec.speedMax
  spread := spec.spread
  count := spec.instanceCount
  lifetime := spec.instanceLifetime
  rate := 1
  emissionRate := spec.instanceRate
  maxCount := spec.maxCount
  emitting := true
  particles := []
  spawnAccumulator := 0
  simAccumulator := some 0
  burst := 0
  prng := drawTurbulence (0x9E3779B97F4A7C15 ^^^ UInt64.ofNat systemIndex)
    (spec.component.elim [] (·.operators))
  component := spec.component
  emitterAccumulators := List.replicate (spec.component.elim 0 (·.emitters.length)) 0

inductive Panic
  | subtractOverflow
  | indexOutOfBounds
  deriving DecidableEq, Repr

/-! ## Spawning -/

/-- A subtraction of `usize`. -/
def subUsize (checks : Bool) (a b : Nat) : Except Panic Nat :=
  if b ≤ a then .ok (a - b)
  else if checks then .error .subtractOverflow
  else .ok (2 ^ 64 + a - b)

/-- Spawns this many particles, one after another. -/
def spawnMany (spawn : System → System) : Nat → System → System
  | 0, s => s
  | n + 1, s => spawnMany spawn n (spawn s)

def System.spawnOne (s : System) : System :=
  let prng := if s.speedMin < s.speedMax then (nextF32 s.prng).2 else s.prng
  let prng := if 0 < s.spread then (nextF32 prng).2 else prng
  { s with
    prng := prng
    particles := s.particles ++ [⟨0, max (s.life * s.lifetime) fixedStep⟩] }

/-- The draws of an emitter for one particle. -/
def Emitter.draw (emitter : Emitter) (state : SplitMix64) : SplitMix64 :=
  match emitter with
  | .box _ distanceMin distanceMax =>
    let state := (nextF32 (uniform state distanceMin.1 distanceMax.1).2).2
    (nextF32 (uniform state distanceMin.2 distanceMax.2).2).2
  | .sphere _ distanceMin distanceMax speedMin speedMax =>
    let state := (uniform state 0 tau).2
    let state := (uniform state (distanceMin * distanceMin) (distanceMax * distanceMax)).2
    if 0 < speedMax ∨ speedMin ≠ 0 then (uniform state speedMin speedMax).2 else state

def drawOscillations (state : SplitMix64) : List Operator → SplitMix64
  | [] => state
  | .oscillate freqMin freqMax phaseMin phaseMax :: operators =>
    let state := (uniform state freqMin freqMax).2
    drawOscillations (uniform state phaseMin (phaseMax + tau)).2 operators
  | _ :: operators => drawOscillations state operators

/-- The life that an initializer leaves, and its draws. -/
def applyInitializer (initializer : Initializer) (life : ℚ) (state : SplitMix64) :
    ℚ × SplitMix64 :=
  match initializer with
  | .lifetimeRandom lo hi =>
    let draw := uniform state lo hi
    (max draw.1 fixedStep, draw.2)
  | .sizeRandom => (life, (nextF32 state).2)
  | .alphaRandom lo hi => (life, (uniform state lo hi).2)
  | .velocityRandom lo hi => (life, (uniform (uniform state lo.1 hi.1).2 lo.2 hi.2).2)
  | .colorRandom lo hi =>
    let state := (uniform (uniform state lo.1 hi.1).2 lo.2.1 hi.2.1).2
    (life, (uniform state lo.2.2 hi.2.2).2)

def applyInitializers : List Initializer → ℚ → SplitMix64 → ℚ × SplitMix64
  | [], life, state => (life, state)
  | initializer :: initializers, life, state =>
    let applied := applyInitializer initializer life state
    applyInitializers initializers applied.1 applied.2

def System.spawnComponent (component : ComponentModel) (emitter : Emitter) (s : System) : System :=
  let state := drawOscillations (emitter.draw s.prng) component.operators
  let applied := applyInitializers component.initializers 1 state
  { s with
    prng := applied.2
    particles := s.particles ++ [⟨0, max (applied.1 * s.lifetime) fixedStep⟩] }

/-- Spawns what was requested, as far as there is room. -/
def System.emit (s : System) (checks : Bool) (spawn : System → System) (requested : Nat) :
    Except Panic System :=
  match subUsize checks s.maxCount s.particles.length with
  | .error e => .error e
  | .ok free => .ok (spawnMany spawn (min requested free) s)

/-- The particles due from an accumulator, and what is left in it. -/
def due (accumulator added : ℚ) : Nat × ℚ :=
  let accumulator := min (accumulator + added) maxSpawnAccumulator
  (toU32 (⌊accumulator⌋ : ℚ), accumulator - ⌊accumulator⌋)

/-! ## Steps -/

/-- The emitters in their order; the burst goes to the first one. -/
def System.emitAll (checks : Bool) (component : ComponentModel) (h : ℚ) :
    List Emitter → List ℚ → Nat → System → Except Panic (System × List ℚ)
  | [], accumulators, _, s => .ok (s, accumulators)
  | emitter :: emitters, accumulators, burst, s =>
    if s.emitting ∧ 0 < emitter.rate then
      match accumulators with
      | [] => .error .indexOutOfBounds
      | accumulator :: accumulators =>
        let spawned := due accumulator (emitter.rate * s.count * s.emissionRate * h)
        match s.emit checks (.spawnComponent component emitter)
            (saturatingAdd32 spawned.1 burst) with
        | .error e => .error e
        | .ok s =>
          match System.emitAll checks component h emitters accumulators 0 s with
          | .error e => .error e
          | .ok (s, rest) => .ok (s, spawned.2 :: rest)
    else
      match s.emit checks (.spawnComponent component emitter) burst with
      | .error e => .error e
      | .ok s =>
        match System.emitAll checks component h emitters accumulators.tail 0 s with
        | .error e => .error e
        | .ok (s, rest) => .ok (s, accumulators.take 1 ++ rest)

def System.stepFixedComponent (s : System) (checks : Bool) (component : ComponentModel) (h : ℚ) :
    Except Panic System :=
  if s.emitting ∨ 0 < s.burst then
    match System.emitAll checks component h component.emitters s.emitterAccumulators s.burst
        { s with burst := 0 } with
    | .error e => .error e
    | .ok (s, accumulators) => .ok { s with emitterAccumulators := accumulators }
  else .ok s

/-- The flat model: particles that are due or in a burst. -/
def System.stepFixedFlat (s : System) (checks : Bool) (h : ℚ) : Except Panic System :=
  if s.emitting ∨ 0 < s.burst then
    let spawned :=
      if s.emitting then due s.spawnAccumulator (s.spawnRate * s.count * s.emissionRate * h)
      else (0, s.spawnAccumulator)
    let requested := saturatingAdd32 spawned.1 s.burst
    let s := { s with spawnAccumulator := spawned.2, burst := 0 }
    match s.emit checks .spawnOne requested with
    | .error e => .error e
    | .ok s => .ok { s with particles := s.particles.map fun p => { p with age := p.age + h } }
  else .ok s

def retain (particles : List Particle) : List Particle := particles.filter fun p => p.age < p.life

def System.stepFixed (checks : Bool) (h : ℚ) (s : System) : Except Panic System :=
  match s.component with
  | some component =>
    match s.stepFixedComponent checks component h with
    | .error e => .error e
    | .ok s => .ok { s with
        particles := retain (s.particles.map fun p => { p with age := p.age + h }) }
  | none =>
    match s.stepFixedFlat checks h with
    | .error e => .error e
    | .ok s => .ok { s with particles := retain s.particles }

/-- The time to simulate after a frame of `dt` seconds. -/
def System.accumulated (s : System) (dt : F64) : Option ℚ :=
  match s.simAccumulator, dt.clamp 0 maxFrameDt with
  | some accumulator, some dt => some (min (accumulator + dt * s.rate) maxAccumulatedSimSeconds)
  | _, _ => none

/-- A frame, and whether a step ran. -/
def System.simulate (checks : Bool) (s : System) (dt : F64) : Except Panic (System × Bool) :=
  match s.accumulated dt with
  | none => .ok ({ s with simAccumulator := none }, false)
  | some time =>
    match FixedStep.loop fixedStep (System.stepFixed checks fixedStep) time s with
    | .error e => .error e
    | .ok (left, s) => .ok ({ s with simAccumulator := some left }, fixedStep ≤ time)

/-! ## Controls -/

def System.play (s : System) : System := { s with emitting := true }

def System.pause (s : System) : System := { s with emitting := false }

def System.stop (s : System) : System :=
  { s with emitting := false, particles := [], spawnAccumulator := 0, burst := 0 }

def System.emitParticles (s : System) (count : UInt32) : System :=
  { s with burst := min (saturatingAdd32 s.burst count.toNat) maxParticles }

/-- `kweSceneSetParticleScalar`; a property that decides nothing here is passed
by. -/
def System.setScalar (s : System) (prop : String) (value : F64) : System :=
  match prop with
  | "spawnRate" => { s with spawnRate := clampSpawnRate value }
  | "life" => { s with life := clampLife value }
  | "speedMin" => { s with speedMin := clampSpeed value }
  | "speedMax" => { s with speedMax := clampSpeed value }
  | "spread" => { s with spread := clampSpread value }
  | "maxCount" => { s with maxCount := clampMaxCount (rawMaxCount value) }
  | "count" => { s with count := clampInstanceFactor value 1000000 }
  | "lifetime" => { s with lifetime := clampInstanceFactor value 1000000 }
  | "rate" => { s with rate := clampInstanceFactor value 1000000 }
  | _ => s

end Kwe.Particles

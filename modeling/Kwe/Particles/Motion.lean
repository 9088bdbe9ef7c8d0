import Kwe.Particles.Model

/-!
Particle systems with all that a fixed step reads and writes: positions, velocities, sizes and
colors of the particles, for the flat model and for the component model.

The arithmetic is exact, and the elementary functions are parameters.
-/

namespace Kwe.Particles.Motion

open Foundation

structure Elementary where
  cos : ℚ → ℚ
  sin : ℚ → ℚ
  sqrt : ℚ → ℚ
  powf : ℚ → ℚ → ℚ

abbrev Vec := ℚ × ℚ

abbrev Rgb := ℚ × ℚ × ℚ

def maxParticleSize : ℚ := 512

/-! ## Particles and components -/

structure Particle where
  x : ℚ
  y : ℚ
  vx : ℚ
  vy : ℚ
  age : ℚ
  life : ℚ
  size : ℚ
  alpha : ℚ
  color : Rgb
  initialSize : ℚ
  initialAlpha : ℚ
  initialColor : Rgb
  /-- Frequency and phase. -/
  oscAlpha : Vec
  oscSize : Vec
  deriving DecidableEq, Repr

def Particle.default : Particle :=
  ⟨0, 0, 0, 0, 0, 1, 0, 0, (1, 1, 1), 0, 0, (1, 1, 1), (0, 0), (0, 0)⟩

inductive Emitter
  | box (rate : ℚ) (origin directions distanceMin distanceMax : Vec)
  | sphere (rate : ℚ) (origin directions : Vec) (distanceMin distanceMax speedMin speedMax : ℚ)
  deriving DecidableEq, Repr

def Emitter.rate : Emitter → ℚ
  | .box rate _ _ _ _ => rate
  | .sphere rate _ _ _ _ _ _ => rate

inductive Initializer
  | lifetimeRandom (min max : ℚ)
  | sizeRandom (min max exponent : ℚ)
  | alphaRandom (min max : ℚ)
  | velocityRandom (min max : Vec)
  | colorRandom (min max : Rgb)
  deriving DecidableEq, Repr

inductive Operator
  | movement (gravity : Vec) (drag : ℚ)
  | alphaFade (fadeIn fadeOut : ℚ)
  | sizeChange (startTime endTime startValue endValue : ℚ)
  | colorChange (startTime endTime : ℚ) (startValue endValue : Rgb)
  | oscillateAlpha (freqMin freqMax scaleMin scaleMax phaseMin phaseMax : ℚ)
  | oscillateSize (freqMin freqMax scaleMin scaleMax phaseMin phaseMax : ℚ)
  | controlPointAttract (origin : Vec) (scale threshold : ℚ)
  | turbulence (scale timeScale speedMin speedMax phaseMin phaseMax : ℚ)
  deriving DecidableEq, Repr

structure ComponentModel where
  emitters : List Emitter
  initializers : List Initializer
  operators : List Operator
  deriving DecidableEq, Repr

/-! ## Systems -/

/-- What a fixed step reads and writes. -/
structure Simulation where
  origin : Vec
  spawnRate : ℚ
  life : ℚ
  speedMin : ℚ
  speedMax : ℚ
  direction : ℚ
  spread : ℚ
  gravity : Vec
  maxCount : Nat
  count : ℚ
  speed : ℚ
  lifetime : ℚ
  size : ℚ
  alphaFactor : ℚ
  colorn : ℚ
  emissionRate : ℚ
  emitting : Bool
  particles : List Particle
  spawnAccumulator : ℚ
  burst : Nat
  prng : SplitMix64
  cappedDiag : Bool
  component : Option ComponentModel
  emitterAccumulators : List ℚ
  /-- Phase and speed of the turbulence operators, in their order. -/
  turbulenceRuntime : List Vec
  simTime : ℚ
  deriving DecidableEq, Repr

structure System extends Simulation where
  rate : ℚ
  simAccumulator : ℚ
  deriving DecidableEq, Repr

/-- A parsed particle system; the parser bounds its count. -/
structure ParticleSpec where
  origin : Vec
  spawnRate : ℚ
  life : ℚ
  speedMin : ℚ
  speedMax : ℚ
  direction : ℚ
  spread : ℚ
  gravity : Vec
  maxCount : Nat
  instanceCount : ℚ
  instanceSpeed : ℚ
  instanceLifetime : ℚ
  instanceSize : ℚ
  instanceAlpha : ℚ
  instanceColorn : ℚ
  instanceRate : ℚ
  component : Option ComponentModel
  maxCount_le : maxCount ≤ maxParticles

/-- Phase and speed of the turbulence operators, drawn once. -/
def drawTurbulence (state : SplitMix64) : List Operator → List Vec × SplitMix64
  | [] => ([], state)
  | .turbulence _ _ speedMin speedMax phaseMin phaseMax :: operators =>
    let (phase, state) := uniform state phaseMin phaseMax
    let (speed, state) := uniform state speedMin speedMax
    let (runtime, state) := drawTurbulence state operators
    ((phase, speed) :: runtime, state)
  | _ :: operators => drawTurbulence state operators

def ParticleSpec.toSystem (spec : ParticleSpec) (systemIndex : Nat) : System :=
  let drawn := drawTurbulence (0x9E3779B97F4A7C15 ^^^ UInt64.ofNat systemIndex)
    (spec.component.elim [] (·.operators))
  { origin := spec.origin
    spawnRate := spec.spawnRate
    life := spec.life
    speedMin := spec.speedMin
    speedMax := spec.speedMax
    direction := spec.direction
    spread := spec.spread
    gravity := spec.gravity
    maxCount := spec.maxCount
    count := spec.instanceCount
    speed := spec.instanceSpeed
    lifetime := spec.instanceLifetime
    size := spec.instanceSize
    alphaFactor := spec.instanceAlpha
    colorn := spec.instanceColorn
    emissionRate := spec.instanceRate
    emitting := true
    particles := []
    spawnAccumulator := 0
    burst := 0
    prng := drawn.2
    cappedDiag := false
    component := spec.component
    emitterAccumulators := List.replicate (spec.component.elim 0 (·.emitters.length)) 0
    turbulenceRuntime := drawn.1
    simTime := 0
    rate := 1
    simAccumulator := 0 }

variable (f : Elementary)

/-! ## Spawning -/

/-- Spawns this many particles, one after another. -/
def spawnMany (spawn : Simulation → Simulation) : Nat → Simulation → Simulation
  | 0, s => s
  | n + 1, s => spawnMany spawn n (spawn s)

def Simulation.spawnOne (s : Simulation) : Simulation :=
  let (speed, prng) :=
    if s.speedMin < s.speedMax then
      let draw := nextF32 s.prng
      (s.speedMin + (s.speedMax - s.speedMin) * draw.1, draw.2)
    else (s.speedMin, s.prng)
  let speed := speed * s.speed
  let (angle, prng) :=
    if 0 < s.spread then
      let draw := nextF32 prng
      (s.direction + (draw.1 * 2 - 1) * s.spread, draw.2)
    else (s.direction, prng)
  { s with
    prng := prng
    particles := s.particles ++ [{ Particle.default with
      x := s.origin.1
      y := s.origin.2
      vx := speed * f.cos angle
      vy := speed * f.sin angle
      age := 0
      life := max (s.life * s.lifetime) fixedStep }] }

/-- An offset along one axis of a box. -/
def boxOffset (state : SplitMix64) (lo hi direction : ℚ) : ℚ × SplitMix64 :=
  let (d, state) := uniform state lo hi
  let (draw, state) := nextF32 state
  ((if draw < 1 / 2 then -d else d) * direction, state)

/-- Where an emitter puts a particle, and its velocity. -/
def Emitter.place (emitter : Emitter) (origin : Vec) (state : SplitMix64) :
    (Vec × Vec) × SplitMix64 :=
  match emitter with
  | .box _ offset directions distanceMin distanceMax =>
    let (dx, state) := boxOffset state distanceMin.1 distanceMax.1 directions.1
    let (dy, state) := boxOffset state distanceMin.2 distanceMax.2 directions.2
    (((origin.1 + offset.1 + dx, origin.2 + offset.2 + dy), (0, 0)), state)
  | .sphere _ offset directions distanceMin distanceMax speedMin speedMax =>
    let (angle, state) := uniform state 0 tau
    let (square, state) := uniform state (distanceMin * distanceMin) (distanceMax * distanceMax)
    let radius := f.sqrt (max square 0)
    let dx := radius * f.cos angle * directions.1
    let dy := radius * f.sin angle * directions.2
    let position := (origin.1 + offset.1 + dx, origin.2 + offset.2 + dy)
    if 0 < speedMax ∨ speedMin ≠ 0 then
      let length := f.sqrt (dx * dx + dy * dy)
      let direction := if 0 < length then (dx / length, dy / length) else (0, 1)
      let (speed, state) := uniform state speedMin speedMax
      ((position, (direction.1 * speed, direction.2 * speed)), state)
    else ((position, (0, 0)), state)

/-- The oscillations of a particle, drawn as it is spawned. -/
def drawOscillations : List Operator → Particle → SplitMix64 → Particle × SplitMix64
  | [], particle, state => (particle, state)
  | .oscillateAlpha freqMin freqMax _ _ phaseMin phaseMax :: operators, particle, state =>
    let (freq, state) := uniform state freqMin freqMax
    let (phase, state) := uniform state phaseMin (phaseMax + tau)
    drawOscillations operators { particle with oscAlpha := (freq, phase) } state
  | .oscillateSize freqMin freqMax _ _ phaseMin phaseMax :: operators, particle, state =>
    let (freq, state) := uniform state freqMin freqMax
    let (phase, state) := uniform state phaseMin (phaseMax + tau)
    drawOscillations operators { particle with oscSize := (freq, phase) } state
  | _ :: operators, particle, state => drawOscillations operators particle state

def applyInitializer (initializer : Initializer) (particle : Particle) (state : SplitMix64) :
    Particle × SplitMix64 :=
  match initializer with
  | .lifetimeRandom lo hi =>
    let (life, state) := uniform state lo hi
    ({ particle with life := max life fixedStep }, state)
  | .sizeRandom lo hi exponent =>
    let (draw, state) := nextF32 state
    let t := f.powf (max draw 0) exponent
    let value := clamp 0 maxParticleSize ((lo + t * (hi - lo)) * (1 / 2))
    ({ particle with size := value, initialSize := value }, state)
  | .alphaRandom lo hi =>
    let (alpha, state) := uniform state lo hi
    ({ particle with alpha := clamp 0 1 alpha, initialAlpha := clamp 0 1 alpha }, state)
  | .velocityRandom lo hi =>
    let (vx, state) := uniform state lo.1 hi.1
    let (vy, state) := uniform state lo.2 hi.2
    ({ particle with vx := particle.vx + vx, vy := particle.vy + vy }, state)
  | .colorRandom lo hi =>
    let (red, state) := uniform state lo.1 hi.1
    let (green, state) := uniform state lo.2.1 hi.2.1
    let (blue, state) := uniform state lo.2.2 hi.2.2
    let color := (clamp 0 1 red, clamp 0 1 green, clamp 0 1 blue)
    ({ particle with color := color, initialColor := color }, state)

def applyInitializers : List Initializer → Particle → SplitMix64 → Particle × SplitMix64
  | [], particle, state => (particle, state)
  | initializer :: initializers, particle, state =>
    let (particle, state) := applyInitializer f initializer particle state
    applyInitializers initializers particle state

/-- The instance factors, after the initializers. -/
def Simulation.scaleParticle (s : Simulation) (particle : Particle) : Particle :=
  let color := (particle.color.1 * s.colorn, particle.color.2.1 * s.colorn,
    particle.color.2.2 * s.colorn)
  { particle with
    size := particle.size * s.size
    initialSize := particle.size * s.size
    alpha := particle.alpha * s.alphaFactor
    initialAlpha := particle.alpha * s.alphaFactor
    color := color
    initialColor := color
    vx := particle.vx * s.speed
    vy := particle.vy * s.speed
    life := max (particle.life * s.lifetime) fixedStep }

def Simulation.spawnComponent (component : ComponentModel) (emitter : Emitter) (s : Simulation) :
    Simulation :=
  let ((position, velocity), state) := emitter.place f s.origin s.prng
  let particle : Particle :=
    { x := position.1, y := position.2, vx := velocity.1, vy := velocity.2, age := 0, life := 1,
      size := 20, initialSize := 20, alpha := 1, initialAlpha := 1, color := (1, 1, 1),
      initialColor := (1, 1, 1), oscAlpha := (0, 0), oscSize := (0, 0) }
  let (particle, state) := drawOscillations component.operators particle state
  let (particle, state) := applyInitializers f component.initializers particle state
  { s with prng := state, particles := s.particles ++ [s.scaleParticle particle] }

/-- Spawns what was requested, as far as there is room. -/
def Simulation.emit (checks : Bool) (spawn : Simulation → Simulation) (requested : Nat)
    (s : Simulation) : Except Panic Simulation :=
  match subUsize checks s.maxCount s.particles.length with
  | .error e => .error e
  | .ok free =>
    .ok (spawnMany spawn (min requested free)
      { s with cappedDiag := s.cappedDiag || decide (free < requested) })

/-- The emitters in their order; the burst goes to the first one. -/
def Simulation.emitAll (checks : Bool) (component : ComponentModel) (h : ℚ) :
    List Emitter → List ℚ → Nat → Simulation → Except Panic (Simulation × List ℚ)
  | [], accumulators, _, s => .ok (s, accumulators)
  | emitter :: emitters, accumulators, burst, s =>
    if s.emitting ∧ 0 < emitter.rate then
      match accumulators with
      | [] => .error .indexOutOfBounds
      | accumulator :: accumulators =>
        let spawned := due accumulator (emitter.rate * s.count * s.emissionRate * h)
        match s.emit checks (.spawnComponent f component emitter)
            (saturatingAdd32 spawned.1 burst) with
        | .error e => .error e
        | .ok s =>
          match Simulation.emitAll checks component h emitters accumulators 0 s with
          | .error e => .error e
          | .ok (s, rest) => .ok (s, spawned.2 :: rest)
    else
      match s.emit checks (.spawnComponent f component emitter) burst with
      | .error e => .error e
      | .ok s =>
        match Simulation.emitAll checks component h emitters accumulators.tail 0 s with
        | .error e => .error e
        | .ok (s, rest) => .ok (s, accumulators.take 1 ++ rest)

/-- What a component system spawns in a step. -/
def Simulation.emitComponent (checks : Bool) (component : ComponentModel) (h : ℚ)
    (s : Simulation) : Except Panic Simulation :=
  if s.emitting ∨ 0 < s.burst then
    match Simulation.emitAll f checks component h component.emitters s.emitterAccumulators s.burst
        { s with burst := 0 } with
    | .error e => .error e
    | .ok (s, accumulators) => .ok { s with emitterAccumulators := accumulators }
  else .ok s

/-- What a flat system spawns in a step: particles that are due or in a burst. -/
def Simulation.emitFlat (checks : Bool) (h : ℚ) (s : Simulation) : Except Panic Simulation :=
  let spawned :=
    if s.emitting then due s.spawnAccumulator (s.spawnRate * s.count * s.emissionRate * h)
    else (0, s.spawnAccumulator)
  Simulation.emit checks (.spawnOne f) (saturatingAdd32 spawned.1 s.burst)
    { s with spawnAccumulator := spawned.2, burst := 0 }

/-! ## Operators -/

def fadeValue (t start stop startValue stopValue : ℚ) : ℚ :=
  if stop ≤ start then stopValue
  else startValue + (stopValue - startValue) * clamp 0 1 ((t - start) / (stop - start))

def Particle.lifeFraction (particle : Particle) : ℚ := clamp 0 1 (particle.age / particle.life)

/-- The position first, then the velocity for the next step. -/
def applyMovement (gravity : Vec) (drag h : ℚ) (particle : Particle) : Particle :=
  let dragFactor := max (1 - drag * h) 0
  { particle with
    x := particle.x + particle.vx * h
    y := particle.y + particle.vy * h
    vx := (particle.vx + gravity.1 * h) * dragFactor
    vy := (particle.vy + gravity.2 * h) * dragFactor }

def applyAlphaFade (fadeIn fadeOut : ℚ) (particle : Particle) : Particle :=
  let life := particle.lifeFraction
  { particle with
    alpha :=
      if life ≤ fadeIn then particle.initialAlpha * fadeValue life 0 fadeIn 0 1
      else if fadeOut < life then particle.initialAlpha * (1 - fadeValue life fadeOut 1 0 1)
      else particle.initialAlpha }

def applySizeChange (startTime endTime startValue endValue : ℚ) (particle : Particle) :
    Particle :=
  let multiplier := fadeValue particle.lifeFraction startTime endTime startValue endValue
  { particle with size := clamp 0 maxParticleSize (particle.initialSize * multiplier) }

def applyColorChange (startTime endTime : ℚ) (startValue endValue : Rgb) (particle : Particle) :
    Particle :=
  let channel := fun initial start stop =>
    clamp 0 1 (initial * fadeValue particle.lifeFraction startTime endTime start stop)
  { particle with
    color := (channel particle.initialColor.1 startValue.1 endValue.1,
      channel particle.initialColor.2.1 startValue.2.1 endValue.2.1,
      channel particle.initialColor.2.2 startValue.2.2 endValue.2.2) }

/-- The wave of an oscillation. -/
def oscillation (osc : Vec) (scaleMin scaleMax : ℚ) (particle : Particle) : ℚ :=
  let wave := (f.cos (osc.1 * particle.age + osc.2) + 1) * (1 / 2)
  scaleMin + (scaleMax - scaleMin) * wave

def applyOscillateAlpha (scaleMin scaleMax : ℚ) (particle : Particle) : Particle :=
  { particle with
    alpha := clamp 0 1 (particle.alpha * oscillation f particle.oscAlpha scaleMin scaleMax particle) }

def applyOscillateSize (scaleMin scaleMax : ℚ) (particle : Particle) : Particle :=
  { particle with
    size := clamp 0 maxParticleSize
      (particle.size * oscillation f particle.oscSize scaleMin scaleMax particle) }

def applyControlPointAttract (anchor : Vec) (scale threshold h : ℚ) (particle : Particle) :
    Particle :=
  let dx := anchor.1 - particle.x
  let dy := anchor.2 - particle.y
  let distance := f.sqrt (dx * dx + dy * dy)
  if 1 / 1000 < distance ∧ distance < threshold then
    { particle with
      vx := particle.vx + dx / distance * scale * h
      vy := particle.vy + dy / distance * scale * h }
  else particle

def applyTurbulence (scale timeScale : ℚ) (runtime : Vec) (simTime h : ℚ) (particle : Particle) :
    Particle :=
  let (phase, speed) := runtime
  if speed ≤ 1 / 10000 then particle
  else
    let freq := min (max scale 0 * 2) 10
    let timeTerm := timeScale * simTime
    let nx := f.sin (particle.x * freq + phase + timeTerm)
    let ny := f.cos (particle.y * freq + phase + timeTerm)
    let len := max (f.sqrt (nx * nx + ny * ny)) (1 / 10000)
    { particle with
      vx := particle.vx + nx / len * speed * h
      vy := particle.vy + ny / len * speed * h }

/-- The operators in their order, each over all particles. -/
def applyOperators (origin : Vec) (simTime h : ℚ) :
    List Operator → List Vec → List Particle → List Particle
  | [], _, particles => particles
  | .movement gravity drag :: operators, runtime, particles =>
    applyOperators origin simTime h operators runtime (particles.map (applyMovement gravity drag h))
  | .alphaFade fadeIn fadeOut :: operators, runtime, particles =>
    applyOperators origin simTime h operators runtime (particles.map (applyAlphaFade fadeIn fadeOut))
  | .sizeChange startTime endTime startValue endValue :: operators, runtime, particles =>
    applyOperators origin simTime h operators runtime
      (particles.map (applySizeChange startTime endTime startValue endValue))
  | .colorChange startTime endTime startValue endValue :: operators, runtime, particles =>
    applyOperators origin simTime h operators runtime
      (particles.map (applyColorChange startTime endTime startValue endValue))
  | .oscillateAlpha _ _ scaleMin scaleMax _ _ :: operators, runtime, particles =>
    applyOperators origin simTime h operators runtime (particles.map (applyOscillateAlpha f scaleMin scaleMax))
  | .oscillateSize _ _ scaleMin scaleMax _ _ :: operators, runtime, particles =>
    applyOperators origin simTime h operators runtime (particles.map (applyOscillateSize f scaleMin scaleMax))
  | .controlPointAttract offset scale threshold :: operators, runtime, particles =>
    let anchor := (origin.1 + offset.1, origin.2 + offset.2)
    applyOperators origin simTime h operators runtime
      (particles.map (applyControlPointAttract f anchor scale threshold h))
  | .turbulence scale timeScale _ _ _ _ :: operators, runtime, particles =>
    applyOperators origin simTime h operators runtime.tail
      (particles.map (applyTurbulence f scale timeScale (runtime.headD (0, 0)) simTime h))

/-! ## Steps -/

/-- The velocity first, then the position, then the age. -/
def Particle.integrate (gravity : Vec) (h : ℚ) (particle : Particle) : Particle :=
  let vx := particle.vx + gravity.1 * h
  let vy := particle.vy + gravity.2 * h
  { particle with
    vx := vx
    vy := vy
    x := particle.x + vx * h
    y := particle.y + vy * h
    age := particle.age + h }

def Particle.grow (h : ℚ) (particle : Particle) : Particle :=
  { particle with age := particle.age + h }

def retain (particles : List Particle) : List Particle := particles.filter fun p => p.age < p.life

def Simulation.stepFixedComponent (checks : Bool) (component : ComponentModel) (h : ℚ)
    (s : Simulation) : Except Panic Simulation :=
  match s.emitComponent f checks component h with
  | .error e => .error e
  | .ok s =>
    .ok { s with
      particles :=
        applyOperators f s.origin s.simTime h component.operators s.turbulenceRuntime s.particles }

def Simulation.stepFixed (checks : Bool) (h : ℚ) (s : Simulation) : Except Panic Simulation :=
  match s.component with
  | some component =>
    match s.stepFixedComponent f checks component h with
    | .error e => .error e
    | .ok s =>
      .ok { s with simTime := s.simTime + h, particles := retain (s.particles.map (·.grow h)) }
  | none =>
    if s.emitting ∨ 0 < s.burst then
      match s.emitFlat f checks h with
      | .error e => .error e
      | .ok s => .ok { s with particles := retain (s.particles.map (·.integrate s.gravity h)) }
    else .ok { s with particles := retain s.particles }

/-- The time to simulate after a frame of `dt` seconds. -/
def System.accumulated (s : System) (dt : ℚ) : ℚ :=
  min (s.simAccumulator + clamp 0 maxFrameDt dt * s.rate) maxAccumulatedSimSeconds

/-- A frame, and whether a step ran. -/
def System.simulate (checks : Bool) (s : System) (dt : ℚ) : Except Panic (System × Bool) :=
  let time := s.accumulated dt
  match FixedStep.loop fixedStep (Simulation.stepFixed f checks fixedStep) time s.toSimulation with
  | .error e => .error e
  | .ok (left, simulation) =>
    .ok ({ s with toSimulation := simulation, simAccumulator := left }, fixedStep ≤ time)

/-! ## Controls -/

def System.play (s : System) : System := { s with emitting := true }

def System.pause (s : System) : System := { s with emitting := false }

def System.stop (s : System) : System :=
  { s with emitting := false, particles := [], spawnAccumulator := 0, burst := 0 }

def Simulation.isPlaying (s : Simulation) : Bool := s.emitting || !s.particles.isEmpty

def System.emitParticles (s : System) (count : UInt32) : System :=
  { s with burst := min (saturatingAdd32 s.burst count.toNat) maxParticles }

end Kwe.Particles.Motion

import Mathlib

/-!
The effect chain of a layer: how the loader plans its passes, what it queues for
every frame, and what the passes mean in the order of the file.

What a material pass computes is open: its shader, blending, combos and
constants make up the function of the pass, which is known by its place in the
chain.
-/

namespace Kwe.Effects

def fullFrameBuffer : String := "_rt_FullFrameBuffer"

def previousInput : String := "previous"

def maxEffectPassBindings : Nat := 256

def maxEffectFrameActions : Nat := 512

/-! ## Layers and their passes -/

/-- What a texture slot of a planned material shows. -/
inductive MaterialTextureSource
  | bytes (bytes : List UInt8)
  | renderTarget (name : String)
  deriving DecidableEq, Repr

inductive EffectTextureSlot
  | texture (bytes : List UInt8)
  | renderTarget (name : String)
  | previous
  deriving DecidableEq, Repr

structure EffectMaterialPass where
  textureSlots : List (Option EffectTextureSlot)
  target : Option String
  deriving DecidableEq, Repr

inductive EffectCommand
  | copy | swap
  deriving DecidableEq, Repr

structure EffectCommandPass where
  command : EffectCommand
  source : String
  target : String
  deriving DecidableEq, Repr

inductive EffectPass
  | material (pass : EffectMaterialPass)
  | command (pass : EffectCommandPass)
  deriving DecidableEq, Repr

structure ObjectEffect where
  visible : Bool
  passes : List EffectPass
  deriving DecidableEq, Repr

structure MaterialSpec where
  textureSlots : List (Option MaterialTextureSource)
  passthrough : Bool
  fullscreen : Bool
  deriving DecidableEq, Repr

structure LayerSpec where
  id : Option Int
  size : ℚ × ℚ
  material : Option MaterialSpec
  effects : List ObjectEffect
  deriving DecidableEq

/-- The passes of the visible effects, one after another. -/
def LayerSpec.passes (layer : LayerSpec) : List EffectPass :=
  (layer.effects.filter ObjectEffect.visible).flatMap ObjectEffect.passes

/-! ## The plan -/

/-- The material of the pass with this index, or the base material. -/
structure PlannedMaterial where
  pass : Option Nat
  textureSlots : List (Option MaterialTextureSource)
  deriving DecidableEq, Repr

structure PlannedCommand where
  pass : Nat
  source : String
  target : String
  command : EffectCommand
  deriving DecidableEq, Repr

structure EffectChainPlan where
  finalMaterial : Option PlannedMaterial
  intermediate : List (PlannedMaterial × String)
  commands : List PlannedCommand
  deriving DecidableEq, Repr

def scopedTargetName (layerIndex : Nat) (name : String) : String :=
  if name = fullFrameBuffer then name else name ++ "#obj" ++ toString layerIndex

/-- One of the two buffers that hold the composite of an object in turn. -/
def pingpongTargetName (layerIndex : Nat) (objectId : Option Int) (slot : Bool) : String :=
  scopedTargetName layerIndex
    ("_rt_imageLayerComposite_" ++ toString (objectId.getD layerIndex) ++
      if slot then "_b" else "_a")

def effectPassTextureSources (layerIndex : Nat) (slots : List (Option EffectTextureSlot))
    (previous : MaterialTextureSource) : List (Option MaterialTextureSource) :=
  slots.map fun slot => slot.map fun
    | .texture bytes => .bytes bytes
    | .renderTarget name => .renderTarget (scopedTargetName layerIndex name)
    | .previous => previous

/-- The buffer that a command names. -/
def commandTarget (layerIndex : Nat) (previous : MaterialTextureSource) (name : String) : String :=
  if name ≠ previousInput then scopedTargetName layerIndex name
  else
    match previous with
    | .renderTarget target => target
    | .bytes _ => previousInput

/-- What `previous` stands for in the first pass. -/
def baseOutput (layer : LayerSpec) : MaterialTextureSource :=
  (layer.material.bind fun material => material.textureSlots.head?.join).getD
    (.renderTarget fullFrameBuffer)

section Plan

variable (layerIndex : Nat) (layer : LayerSpec)

/-- The material of a pass with this index, after this output. -/
def planMaterial (k : Nat) (previous : MaterialTextureSource) (pass : EffectMaterialPass) :
    PlannedMaterial :=
  ⟨some k, effectPassTextureSources layerIndex pass.textureSlots previous⟩

def planCommand (k : Nat) (previous : MaterialTextureSource) (pass : EffectCommandPass) :
    PlannedCommand :=
  ⟨k, commandTarget layerIndex previous pass.source, commandTarget layerIndex previous pass.target,
    pass.command⟩

/-- Plans the passes from this index. -/
def planPasses : Nat → MaterialTextureSource → Bool → List EffectPass → EffectChainPlan
  | _, _, _, [] => ⟨none, [], []⟩
  | k, lastOutput, writeSlot, .command pass :: passes =>
    let plan := planPasses (k + 1) lastOutput writeSlot passes
    { plan with commands := planCommand layerIndex k lastOutput pass :: plan.commands }
  | k, lastOutput, writeSlot, .material pass :: passes =>
    let planned := planMaterial layerIndex k lastOutput pass
    match pass.target with
    | some name =>
      let target := scopedTargetName layerIndex name
      let plan := planPasses (k + 1) (.renderTarget target) writeSlot passes
      { plan with intermediate := (planned, target) :: plan.intermediate }
    | none =>
      if passes.isEmpty then ⟨some planned, [], []⟩
      else
        let target := pingpongTargetName layerIndex layer.id writeSlot
        let plan := planPasses (k + 1) (.renderTarget target) (!writeSlot) passes
        { plan with intermediate := (planned, target) :: plan.intermediate }

def planEffectChain : EffectChainPlan :=
  planPasses layerIndex layer 0 (baseOutput layer) false layer.passes

end Plan

/-! ## What is queued -/

def textureSlotsAreBareRenderTargetOnly (slots : List (Option MaterialTextureSource)) : Bool :=
  !slots.any fun
    | some (.bytes _) => true
    | _ => false

def textureSlotsReferenceFullFrameBuffer (slots : List (Option MaterialTextureSource)) : Bool :=
  slots.contains (some (.renderTarget fullFrameBuffer))

def textureSlotsReferenceOnlyFullFrameBuffer (slots : List (Option MaterialTextureSource)) : Bool :=
  !slots.any fun
    | some (.renderTarget name) => name != fullFrameBuffer
    | _ => false

def effectPassSamplesItsOwnTarget (slots : List (Option MaterialTextureSource))
    (target : String) : Bool :=
  slots.contains (some (.renderTarget target))

/-- Why a layer of the passthrough family is not drawn. -/
inductive PassthroughRefusal
  | withoutEffects | regionUnsupported
  deriving DecidableEq, Repr

def passthroughDrawDecision (material : Option MaterialSpec) (hasChainMaterial : Bool)
    (layerSize : ℚ × ℚ) (sceneResolution : Option (Nat × Nat)) (canvas : Nat × Nat) :
    Option PassthroughRefusal :=
  match material with
  | none => none
  | some material =>
    if !material.passthrough then none
    else if !hasChainMaterial then some .withoutEffects
    else
      let (width, height) := sceneResolution.getD canvas
      if material.fullscreen || decide ((width : ℚ) ≤ layerSize.1 ∧ (height : ℚ) ≤ layerSize.2) then
        none
      else some .regionUnsupported

/-- What the loader finds when it comes to a layer: the materials that compile
and can be bound, the targets that exist, and how much is bound and queued. -/
structure Renderer where
  compiles : PlannedMaterial → Bool
  effectTargets : String → Bool
  passBindings : Nat
  frameActions : Nat
  sceneResolution : Option (Nat × Nat)
  canvas : Nat × Nat

inductive EffectFrameAction
  | render (material : PlannedMaterial) (target : String)
  | copy (command : PlannedCommand)
  deriving DecidableEq, Repr

/-- Queues the passes that render to a target. -/
def queueRenders (r : Renderer) :
    Nat → Nat → List (PlannedMaterial × String) → List EffectFrameAction
  | _, _, [] => []
  | bound, queued, (material, target) :: passes =>
    if effectPassSamplesItsOwnTarget material.textureSlots target then
      queueRenders r bound queued passes
    else if !r.compiles material || decide (maxEffectPassBindings ≤ bound) ||
        !r.effectTargets target then
      queueRenders r bound queued passes
    else if maxEffectFrameActions ≤ queued then queueRenders r (bound + 1) queued passes
    else .render material target :: queueRenders r (bound + 1) (queued + 1) passes

/-- Queues the commands behind this many actions. -/
def queueCopies (queued : Nat) (commands : List PlannedCommand) : List EffectFrameAction :=
  (commands.take (maxEffectFrameActions - queued)).map .copy

/-- The material that a layer is drawn with. -/
def drawnMaterial (layer : LayerSpec) (plan : Option EffectChainPlan) : Option PlannedMaterial :=
  match plan.bind EffectChainPlan.finalMaterial with
  | some material => some material
  | none => layer.material.map fun material => ⟨none, material.textureSlots⟩

/-- The plan of a layer that has effects. -/
def layerPlan (layerIndex : Nat) (layer : LayerSpec) : Option EffectChainPlan :=
  if layer.effects.isEmpty then none else some (planEffectChain layerIndex layer)

/-- The material that the layer is bound to, and what is queued for it. -/
def compileMaterialLayer (r : Renderer) (layerIndex : Nat) (layer : LayerSpec) :
    Option PlannedMaterial × List EffectFrameAction :=
  let plan := layerPlan layerIndex layer
  let hasChainMaterial := (plan.bind EffectChainPlan.finalMaterial).isSome
  match passthroughDrawDecision layer.material hasChainMaterial layer.size r.sceneResolution
      r.canvas with
  | some _ => (none, [])
  | none =>
    match drawnMaterial layer plan with
    | none => (none, [])
    | some material =>
      let ffbOnlyPassthrough := textureSlotsReferenceFullFrameBuffer material.textureSlots &&
        textureSlotsReferenceOnlyFullFrameBuffer material.textureSlots
      if plan.isNone && textureSlotsAreBareRenderTargetOnly material.textureSlots &&
          !ffbOnlyPassthrough then (none, [])
      else if !r.compiles material then (none, [])
      else
        match plan with
        | none => (some material, [])
        | some plan =>
          let renders := queueRenders r r.passBindings r.frameActions plan.intermediate
          (some material, renders ++ queueCopies (r.frameActions + renders.length) plan.commands)

/-! ## What the passes mean -/

/-- What textures, material passes and commands compute. -/
structure Meaning (Image : Type) where
  texture : List UInt8 → Option Image
  shade : PlannedMaterial → List (Option Image) → Image
  copy : PlannedCommand → Image → Image → Image

/-- What a layer shows, and the contents of the named buffers. -/
structure Frame (Image : Type) where
  image : Option Image
  buffers : String → Image

section Meaning

variable {Image : Type} (meaning : Meaning Image) (r : Renderer)

def Meaning.sample (buffers : String → Image) : Option MaterialTextureSource → Option Image
  | none => none
  | some (.bytes bytes) => meaning.texture bytes
  | some (.renderTarget name) => some (buffers name)

def Meaning.draw (buffers : String → Image) (material : PlannedMaterial) : Image :=
  meaning.shade material (material.textureSlots.map (meaning.sample buffers))

/-- Copies between two buffers, when both exist and differ.  A swap is executed
as a copy. -/
def copyEffectTarget (buffers : String → Image) (command : PlannedCommand) : String → Image :=
  if command.source = command.target then buffers
  else if !r.effectTargets command.source || !r.effectTargets command.target then buffers
  else
    Function.update buffers command.target
      (meaning.copy command (buffers command.source) (buffers command.target))

def runAction (buffers : String → Image) (action : EffectFrameAction) : String → Image :=
  match action with
  | .render material target => Function.update buffers target (meaning.draw buffers material)
  | .copy command => copyEffectTarget meaning r buffers command

/-- What is queued is executed in its order, then the layer is drawn. -/
def renderFrame (buffers : String → Image)
    (compiled : Option PlannedMaterial × List EffectFrameAction) : Frame Image :=
  let buffers := compiled.2.foldl (runAction meaning r) buffers
  ⟨compiled.1.map (meaning.draw buffers), buffers⟩

/-- The passes from this index in the order of the file.  An untargeted pass is
what the layer shows, and its composite is kept for the passes behind it. -/
def runPasses (layerIndex : Nat) (layer : LayerSpec) :
    Nat → MaterialTextureSource → Bool → List EffectPass → Frame Image → Frame Image
  | _, _, _, [], frame => frame
  | k, previous, slot, .command pass :: passes, frame =>
    runPasses layerIndex layer (k + 1) previous slot passes
      { frame with
        buffers :=
          copyEffectTarget meaning r frame.buffers (planCommand layerIndex k previous pass) }
  | k, previous, slot, .material pass :: passes, frame =>
    let output := meaning.draw frame.buffers (planMaterial layerIndex k previous pass)
    match pass.target with
    | some name =>
      let target := scopedTargetName layerIndex name
      runPasses layerIndex layer (k + 1) (.renderTarget target) slot passes
        { frame with buffers := Function.update frame.buffers target output }
    | none =>
      if passes.isEmpty then { frame with image := some output }
      else
        let target := pingpongTargetName layerIndex layer.id slot
        runPasses layerIndex layer (k + 1) (.renderTarget target) (!slot) passes
          ⟨some output, Function.update frame.buffers target output⟩

/-- All passes in the order of the file.  Without an untargeted pass the layer
shows its base material. -/
def fileOrder (layerIndex : Nat) (layer : LayerSpec) (buffers : String → Image) : Frame Image :=
  let frame := runPasses meaning r layerIndex layer 0 (baseOutput layer) false layer.passes
    ⟨none, buffers⟩
  match frame.image with
  | some _ => frame
  | none =>
    { frame with
      image := layer.material.map fun material =>
        meaning.draw frame.buffers ⟨none, material.textureSlots⟩ }

end Meaning

end Kwe.Effects

import Kwe.Foundation.Checks
import Kwe.Foundation.Numbering

/-!
The layers and the particle systems of a scene: which objects of the file are registered, and
what the script and the worker write to them while the scene runs.

Numbers of the renderer are of any type `F`.  What the fields of an object are read as is part
of the object here, and so is the message when they are refused.
-/

namespace Kwe.Layers

open Foundation

variable {F : Type}

def maxLayers : Nat := 256

def maxTextLayers : Nat := 16

def maxParticleSystems : Nat := 64

inductive BlendMode
  | normal
  | multiply
  | add
  | screen
  | subtract
  deriving DecidableEq, Repr

def BlendMode.fromU32 : Nat → Option BlendMode
  | 0 => some .normal
  | 1 => some .multiply
  | 6 => some .add
  | 7 => some .screen
  | 9 => some .subtract
  | _ => none

def BlendMode.clamp (value : Nat) : BlendMode := (fromU32 value).getD .normal

/-! ## Objects -/

/-- The properties that a layer is drawn with, as the file has them; the blend mode is raw, and
an image without a size has the size of its texture. -/
structure LayerProps (F : Type) where
  alpha : F
  visible : Bool
  angles : F × F × F
  origin : F × F
  scale : F × F
  size : F × F
  blendMode : Nat
  brightness : F
  tint : F × F × F × F

/-- The properties that a particle system is drawn with. -/
structure SystemProps (F : Type) where
  alpha : F
  visible : Bool
  blendMode : Nat
  brightness : F

/-- `ObjectKindIr`, with what reading the fields gives; the kinds of images are alike here. -/
inductive ObjectKind (F : Type)
  /-- A model with bad fields is left out. -/
  | model (layer : Option (LayerProps F))
  | image (layer : Except String (LayerProps F))
  | video (layer : Except String (LayerProps F))
  | particle (system : Except String (SystemProps F))
  | particleFile (system : Except String (SystemProps F))
  /-- A text has a color. -/
  | text (layer : Except String (LayerProps F × (F × F × F × F)))
  | unknown

structure LayerSpec (F : Type) where
  sceneOrder : Nat
  props : LayerProps F
  text : Option (F × F × F × F)

structure ParticleSpec (F : Type) where
  sceneOrder : Nat
  props : SystemProps F

/-- What the pass over the objects has put together. -/
structure Registry (F : Type) where
  layers : List (LayerSpec F)
  particles : List (ParticleSpec F)
  registeredTextLayers : Nat

namespace Registry

def empty : Registry F := ⟨[], [], 0⟩

def pushLayer (r : Registry F) (index : Nat) (props : LayerProps F) : Registry F :=
  { r with layers := r.layers ++ [⟨index, props, none⟩] }

def pushText (r : Registry F) (index : Nat) (props : LayerProps F) (color : F × F × F × F) :
    Registry F :=
  { r with
    layers := r.layers ++ [⟨index, props, some color⟩]
    registeredTextLayers := r.registeredTextLayers + 1 }

/-- A particle system beyond the cap is left out before its fields are looked at. -/
def pushSystem (r : Registry F) (index : Nat) (system : Except String (SystemProps F)) :
    Except String (Registry F) :=
  if maxParticleSystems ≤ r.particles.length then .ok r
  else do
    let props ← system
    .ok { r with particles := r.particles ++ [⟨index, props⟩] }

/-- One turn of the loop over the objects. -/
def register (r : Registry F) (index : Nat) : ObjectKind F → Except String (Registry F)
  | .model none => .ok r
  | .model (some props) => .ok (r.pushLayer index props)
  | .image layer => do
    let props ← layer
    .ok (r.pushLayer index props)
  | .video layer => do
    let props ← layer
    .ok (r.pushLayer index props)
  | .particle system => r.pushSystem index system
  | .particleFile system => r.pushSystem index system
  | .text layer =>
    if maxTextLayers ≤ r.registeredTextLayers then .ok r
    else do
      let (props, color) ← layer
      .ok (r.pushText index props color)
  | .unknown => .ok r

def registerFrom (r : Registry F) : Nat → List (ObjectKind F) → Except String (Registry F)
  | _, [] => .ok r
  | index, object :: objects => do
    let r ← r.register index object
    r.registerFrom (index + 1) objects

end Registry

/-- The layers and the particle systems of a scene. -/
def sceneFromIr (objects : List (ObjectKind F)) : Except String (Registry F) := do
  let r ← Registry.empty.registerFrom 0 objects
  if maxLayers < r.layers.length then
    .error s!"scene.json \"objects\" has {r.layers.length} image layers, over the {maxLayers} layer cap"
  else
    .ok r

/-! ## States -/

structure TextState (F : Type) where
  color : F × F × F × F
  dirty : Bool
  vertexCount : Nat

structure LayerState (F : Type) where
  sceneOrder : Nat
  alpha : F
  visible : Bool
  angles : F × F × F
  origin : F × F
  scale : F × F
  size : F × F
  blendMode : BlendMode
  brightness : F
  tint : F × F × F × F
  text : Option (TextState F)

/-- A text is drawn at the size of its layout. -/
def LayerState.fromSpec [One F] (spec : LayerSpec F) : LayerState F where
  sceneOrder := spec.sceneOrder
  alpha := spec.props.alpha
  visible := spec.props.visible
  angles := spec.props.angles
  origin := spec.props.origin
  scale := spec.props.scale
  size := if spec.text.isSome then (1, 1) else spec.props.size
  blendMode := .clamp spec.props.blendMode
  brightness := spec.props.brightness
  tint := spec.props.tint
  text := spec.text.map fun color => ⟨color, true, 0⟩

/-- A particle system, as far as it is drawn. -/
structure ParticleSystemState (F : Type) where
  sceneOrder : Nat
  alpha : F
  visible : Bool
  blendMode : BlendMode
  brightness : F
  vertexCount : Nat

def ParticleSystemState.fromSpec (spec : ParticleSpec F) : ParticleSystemState F where
  sceneOrder := spec.sceneOrder
  alpha := spec.props.alpha
  visible := spec.props.visible
  blendMode := .clamp spec.props.blendMode
  brightness := spec.props.brightness
  vertexCount := 0

/-- A write to a layer, by the script (after its clamps) or by the text renderer. -/
inductive LayerWrite (F : Type)
  | alpha (value : F)
  | visible (value : Bool)
  | blendMode (raw : Nat)
  | brightness (value : F)
  | angles (value : F × F × F)
  | origin (value : F × F)
  | scale (value : F × F)
  | size (value : F × F)
  | tint (value : F × F × F × F)
  /-- Nothing, unless the layer is a text. -/
  | color (value : F × F × F × F)
  | vertices (count : Nat)

def LayerState.write (state : LayerState F) : LayerWrite F → LayerState F
  | .alpha value => { state with alpha := value }
  | .visible value => { state with visible := value }
  | .blendMode raw => { state with blendMode := .clamp raw }
  | .brightness value => { state with brightness := value }
  | .angles value => { state with angles := value }
  | .origin value => { state with origin := value }
  | .scale value => { state with scale := value }
  | .size value => { state with size := value }
  | .tint value => { state with tint := value }
  | .color value => { state with text := state.text.map fun text =>
      { text with color := value, dirty := true } }
  | .vertices count => { state with text := state.text.map fun text =>
      { text with vertexCount := count, dirty := false } }

/-- A write to a particle system, by the script or after a step of the simulation. -/
inductive SystemWrite (F : Type)
  | alpha (value : F)
  | visible (value : Bool)
  | blendMode (raw : Nat)
  | brightness (value : F)
  | vertices (count : Nat)

def ParticleSystemState.write (state : ParticleSystemState F) :
    SystemWrite F → ParticleSystemState F
  | .alpha value => { state with alpha := value }
  | .visible value => { state with visible := value }
  | .blendMode raw => { state with blendMode := .clamp raw }
  | .brightness value => { state with brightness := value }
  | .vertices count => { state with vertexCount := count }

end Kwe.Layers

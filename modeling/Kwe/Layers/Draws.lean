import Kwe.Layers.States

/-!
The draw list of a frame: the layers, the particle systems, and both merged into the order of
the file.

* `registerFrom_numbered`: each object that is registered has the number it has in the file;
* `runEvents_numbers`: no write changes a number;
* `draws_correct`: the merged list.
-/

namespace Kwe.Layers

open Foundation Foundation.Checks Foundation.Numbering

variable {F : Type}

/-! ## Draw lists -/

inductive DrawKind
  | image
  | text (vertexCount : Nat)
  | particles (vertexCount : Nat)
  deriving DecidableEq, Repr

structure LayerDraw (F : Type) where
  layerIndex : Nat
  sceneOrder : Nat
  m : (F × F) × (F × F)
  t : F × F
  alpha : F
  blendMode : BlendMode
  brightness : F
  tint : F × F × F × F
  kind : DrawKind
  material : Bool

/-- `sinCos` is the sine and the cosine of so many degrees. -/
def layerModel [Mul F] [Neg F] (sinCos : F → F × F) (angleDegrees : F) (scale size origin : F × F) :
    ((F × F) × (F × F)) × (F × F) :=
  let (sin, cos) := sinCos angleDegrees
  let (sx, sy) := (scale.1 * size.1, scale.2 * size.2)
  (((cos * sx, -sin * sy), (sin * sx, cos * sy)), origin)

/-- What a layer is drawn as, and in which tint; a text without vertices is not drawn. -/
def LayerState.kindTint (state : LayerState F) : Option (DrawKind × (F × F × F × F)) :=
  match state.text with
  | some text => if 0 < text.vertexCount then some (.text text.vertexCount, text.color) else none
  | none => some (.image, state.tint)

/-- The draw of a layer, unless it is invisible or its texture failed. -/
def layerDraw [Mul F] [Neg F] (sinCos : F → F × F) (textureOk materialOk : List Bool)
    (state : LayerState F) (layerIndex : Nat) : Option (LayerDraw F) :=
  if !state.visible || textureOk[layerIndex]? ≠ some true then none
  else
    state.kindTint.map fun (kind, tint) =>
      let model := layerModel sinCos state.angles.2.2 state.scale state.size state.origin
      { layerIndex, sceneOrder := state.sceneOrder, m := model.1, t := model.2
        alpha := state.alpha, blendMode := state.blendMode, brightness := state.brightness
        tint, kind, material := kind = .image && materialOk[layerIndex]? = some true }

def frameDraws [Mul F] [Neg F] (sinCos : F → F × F) (layers : List (LayerState F))
    (textureOk materialOk : List Bool) : List (LayerDraw F) :=
  layers.zipIdx.filterMap fun (state, layerIndex) =>
    layerDraw sinCos textureOk materialOk state layerIndex

/-- The draw of a particle system, unless it is invisible, empty or without a texture. -/
def particleDraw [Zero F] [One F] (textureOk : List Bool) (system : ParticleSystemState F)
    (index : Nat) : Option (LayerDraw F) :=
  if !system.visible || system.vertexCount = 0 || textureOk[index]? ≠ some true then none
  else
    some
      { layerIndex := maxLayers + index, sceneOrder := system.sceneOrder, m := ((1, 0), (0, 1))
        t := (0, 0), alpha := system.alpha, blendMode := system.blendMode
        brightness := system.brightness, tint := (1, 1, 1, 1)
        kind := .particles system.vertexCount, material := false }

def particleDraws [Zero F] [One F] (systems : List (ParticleSystemState F))
    (textureOk : List Bool) : List (LayerDraw F) :=
  systems.zipIdx.filterMap fun (system, index) => particleDraw textureOk system index

/-- The two lists, the earlier object of the file first; a layer wins a tie. -/
def mergedDraws : List (LayerDraw F) → List (LayerDraw F) → List (LayerDraw F)
  | [], particles => particles
  | layers, [] => layers
  | layer :: layers, particle :: particles =>
    if layer.sceneOrder ≤ particle.sceneOrder then
      layer :: mergedDraws layers (particle :: particles)
    else particle :: mergedDraws (layer :: layers) particles

theorem mergedDraws_eq (layers particles : List (LayerDraw F)) :
    mergedDraws layers particles =
      layers.merge particles fun a b => decide (a.sceneOrder ≤ b.sceneOrder) := by
  fun_induction mergedDraws layers particles with
  | case1 particles => simp
  | case2 layers hne => simp
  | case3 layer layers particle particles hle ih => simp [hle, ih]
  | case4 layer layers particle particles hle ih => simp [hle, ih]

/-! ## The worker -/

/-- What the worker draws from. -/
structure Worker (F : Type) where
  layers : List (LayerState F)
  textureOk : List Bool
  materialOk : List Bool
  particles : List (ParticleSystemState F)
  particleTextureOk : List Bool

def Worker.start [One F] (r : Registry F) (textureOk materialOk particleTextureOk : List Bool) :
    Worker F where
  layers := r.layers.map .fromSpec
  textureOk := textureOk
  materialOk := materialOk
  particles := r.particles.map .fromSpec
  particleTextureOk := particleTextureOk

inductive Event (F : Type)
  | layer (index : Nat) (write : LayerWrite F)
  | particles (index : Nat) (write : SystemWrite F)
  | texture (index : Nat) (ok : Bool)
  | particleTexture (index : Nat) (ok : Bool)

def Worker.step (w : Worker F) : Event F → Worker F
  | .layer index write => { w with layers := w.layers.modify index (·.write write) }
  | .particles index write => { w with particles := w.particles.modify index (·.write write) }
  | .texture index ok => { w with textureOk := w.textureOk.set index ok }
  | .particleTexture index ok => { w with particleTextureOk := w.particleTextureOk.set index ok }

/-- The states of a worker whose scene was parsed. -/
inductive Worker.Reached [One F] : Worker F → Prop
  | start {objects : List (ObjectKind F)} {r : Registry F} (h : sceneFromIr objects = .ok r)
      (textureOk materialOk particleTextureOk : List Bool) :
      Reached (Worker.start r textureOk materialOk particleTextureOk)
  | step {w : Worker F} (h : Reached w) (event : Event F) : Reached (w.step event)

/-- The draw list of a frame. -/
def Worker.draws [Zero F] [One F] [Mul F] [Neg F] (w : Worker F) (sinCos : F → F × F) : List (LayerDraw F) :=
  mergedDraws (frameDraws sinCos w.layers w.textureOk w.materialOk)
    (particleDraws w.particles w.particleTextureOk)

/-- The objects that a frame shows: the number of each in the file, and its texture slot. -/
inductive Worker.Drawn (w : Worker F) : Nat → Nat → Prop
  | layer {index : Nat} {state : LayerState F} (h : w.layers[index]? = some state)
      (hvisible : state.visible = true) (htexture : w.textureOk[index]? = some true)
      (hvertices : ∀ text ∈ state.text, 0 < text.vertexCount) : Drawn w state.sceneOrder index
  | particles {index : Nat} {system : ParticleSystemState F} (h : w.particles[index]? = some system)
      (hvisible : system.visible = true) (htexture : w.particleTextureOk[index]? = some true)
      (hvertices : 0 < system.vertexCount) : Drawn w system.sceneOrder (maxLayers + index)

/-! ## Numbers -/

/-- The objects up to `bound` have their numbers, and the systems are within the cap. -/
structure Registry.Numbered (bound : Nat) (r : Registry F) : Prop where
  split : Split bound (r.layers.map (·.sceneOrder)) (r.particles.map (·.sceneOrder))
  systems : r.particles.length ≤ maxParticleSystems

namespace Registry.Numbered

variable {r r' : Registry F} {index : Nat}

theorem skip (h : r.Numbered index) : r.Numbered (index + 1) := ⟨h.split.skip, h.systems⟩

theorem pushLayer (h : r.Numbered index) (props : LayerProps F) :
    (r.pushLayer index props).Numbered (index + 1) := by
  refine ⟨?_, h.systems⟩
  simpa [Registry.pushLayer] using h.split.push_left

theorem pushText (h : r.Numbered index) (props : LayerProps F) (color : F × F × F × F) :
    (r.pushText index props color).Numbered (index + 1) := by
  refine ⟨?_, h.systems⟩
  simpa [Registry.pushText] using h.split.push_left

theorem pushSystem (h : r.Numbered index) {system : Except String (SystemProps F)}
    (hpush : r.pushSystem index system = .ok r') : r'.Numbered (index + 1) := by
  unfold Registry.pushSystem at hpush
  split at hpush
  next hcap =>
    obtain rfl := Except.ok.inj hpush
    exact h.skip
  next hcap =>
    obtain ⟨props, -, hpush⟩ := bind_ok hpush
    obtain rfl := Except.ok.inj hpush
    refine ⟨?_, ?_⟩
    · simpa using h.split.push_right
    · rw [List.length_append]
      exact Nat.not_le.mp hcap

/-- Each turn gives the next number to at most one object. -/
theorem register (h : r.Numbered index) {object : ObjectKind F}
    (hregister : r.register index object = .ok r') : r'.Numbered (index + 1) := by
  cases object with
  | model layer =>
    cases layer with
    | none =>
      obtain rfl := Except.ok.inj hregister
      exact h.skip
    | some props =>
      obtain rfl := Except.ok.inj hregister
      exact h.pushLayer props
  | image layer =>
    obtain ⟨props, -, hregister⟩ := bind_ok hregister
    obtain rfl := Except.ok.inj hregister
    exact h.pushLayer props
  | video layer =>
    obtain ⟨props, -, hregister⟩ := bind_ok hregister
    obtain rfl := Except.ok.inj hregister
    exact h.pushLayer props
  | particle system => exact h.pushSystem hregister
  | particleFile system => exact h.pushSystem hregister
  | text layer =>
    simp only [Registry.register] at hregister
    split at hregister
    next =>
      obtain rfl := Except.ok.inj hregister
      exact h.skip
    next =>
      obtain ⟨⟨props, color⟩, -, hregister⟩ := bind_ok hregister
      obtain rfl := Except.ok.inj hregister
      exact h.pushText props color
  | unknown =>
    obtain rfl := Except.ok.inj hregister
    exact h.skip

theorem registerFrom (h : r.Numbered index) {objects : List (ObjectKind F)}
    (hregister : r.registerFrom index objects = .ok r') :
    r'.Numbered (index + objects.length) := by
  induction objects generalizing r index with
  | nil =>
    obtain rfl := Except.ok.inj hregister
    exact h
  | cons object objects ih =>
    obtain ⟨r₁, hobject, hregister⟩ := bind_ok hregister
    have hrest := ih (h.register hobject) hregister
    rwa [Nat.add_right_comm, Nat.add_assoc, ← List.length_cons] at hrest

end Registry.Numbered

theorem sceneFromIr_numbered {objects : List (ObjectKind F)} {r : Registry F}
    (h : sceneFromIr objects = .ok r) :
    r.Numbered objects.length ∧ r.layers.length ≤ maxLayers := by
  obtain ⟨r', hregister, h⟩ := bind_ok h
  have hempty : (Registry.empty : Registry F).Numbered 0 := ⟨.nil, Nat.zero_le _⟩
  have hnumbered := hempty.registerFrom hregister
  rw [Nat.zero_add] at hnumbered
  obtain ⟨hcap, h⟩ := check_ok h
  obtain rfl := Except.ok.inj h
  exact ⟨hnumbered, Nat.not_lt.mp hcap⟩

/-! ## Reached states -/

/-- A worker whose objects have their numbers, within the caps. -/
structure Worker.Numbered (bound : Nat) (w : Worker F) : Prop where
  split : Split bound (w.layers.map (·.sceneOrder)) (w.particles.map (·.sceneOrder))
  layers_le : w.layers.length ≤ maxLayers
  particles_le : w.particles.length ≤ maxParticleSystems

@[simp]
theorem LayerState.write_sceneOrder (state : LayerState F) (write : LayerWrite F) :
    (state.write write).sceneOrder = state.sceneOrder := by
  cases write <;> rfl

@[simp]
theorem ParticleSystemState.write_sceneOrder (state : ParticleSystemState F)
    (write : SystemWrite F) : (state.write write).sceneOrder = state.sceneOrder := by
  cases write <;> rfl

/-- A change of one entry that keeps what `g` tells of it. -/
theorem map_modify {α β : Type} {f : α → α} {g : α → β} (h : ∀ a, g (f a) = g a) (l : List α)
    (index : Nat) : (l.modify index f).map g = l.map g := by
  induction l generalizing index with
  | nil => simp
  | cons a l ih =>
    cases index with
    | zero => simp [h]
    | succ index => simp [ih]

theorem Worker.Numbered.step {bound : Nat} {w : Worker F} (h : w.Numbered bound)
    (event : Event F) : (w.step event).Numbered bound := by
  cases event with
  | layer index write =>
    refine ⟨?_, ?_, h.particles_le⟩
    · simpa [Worker.step, map_modify] using h.split
    · simpa [Worker.step] using h.layers_le
  | particles index write =>
    refine ⟨?_, h.layers_le, ?_⟩
    · simpa [Worker.step, map_modify] using h.split
    · simpa [Worker.step] using h.particles_le
  | texture index ok => exact ⟨h.split, h.layers_le, h.particles_le⟩
  | particleTexture index ok => exact ⟨h.split, h.layers_le, h.particles_le⟩

theorem Worker.Reached.numbered [One F] {w : Worker F} (h : w.Reached) : ∃ bound, w.Numbered bound := by
  induction h with
  | @start objects r h textureOk materialOk particleTextureOk =>
    obtain ⟨hnumbered, hlayers⟩ := sceneFromIr_numbered h
    refine ⟨objects.length, ?_, ?_, ?_⟩
    · simpa [Worker.start, Function.comp_def, LayerState.fromSpec, ParticleSystemState.fromSpec]
        using hnumbered.split
    · simpa [Worker.start] using hlayers
    · simpa [Worker.start] using hnumbered.systems
  | step _ event ih =>
    obtain ⟨bound, ih⟩ := ih
    exact ⟨bound, ih.step event⟩

/-! ## Entries -/

theorem LayerState.kindTint_isSome (state : LayerState F) :
    (∃ p, state.kindTint = some p) ↔ ∀ text ∈ state.text, 0 < text.vertexCount := by
  rw [kindTint]
  cases state.text with
  | none => exact iff_of_true ⟨_, rfl⟩ nofun
  | some text =>
    by_cases h : 0 < text.vertexCount
    · simp [h]
    · simp [h]

theorem layerDraw_some [Mul F] [Neg F] {sinCos : F → F × F} {textureOk materialOk : List Bool}
    {state : LayerState F} {layerIndex : Nat} {d : LayerDraw F}
    (h : layerDraw sinCos textureOk materialOk state layerIndex = some d) :
    (state.visible = true ∧ textureOk[layerIndex]? = some true ∧
      ∀ text ∈ state.text, 0 < text.vertexCount) ∧
      d.sceneOrder = state.sceneOrder ∧ d.layerIndex = layerIndex := by
  unfold layerDraw at h
  split at h
  next => exact nomatch h
  next hshown =>
    simp only [Bool.or_eq_true, Bool.not_eq_true', decide_eq_true_eq, not_or, Bool.not_eq_false,
      not_not] at hshown
    obtain ⟨p, hp, rfl⟩ := Option.map_eq_some_iff.mp h
    exact ⟨⟨hshown.1, hshown.2, state.kindTint_isSome.mp ⟨p, hp⟩⟩, rfl, rfl⟩

theorem layerDraw_isSome [Mul F] [Neg F] (sinCos : F → F × F) {textureOk : List Bool}
    (materialOk : List Bool) {state : LayerState F} {layerIndex : Nat}
    (hvisible : state.visible = true) (htexture : textureOk[layerIndex]? = some true)
    (hvertices : ∀ text ∈ state.text, 0 < text.vertexCount) :
    ∃ d, layerDraw sinCos textureOk materialOk state layerIndex = some d := by
  have hshown : ¬ (!state.visible || textureOk[layerIndex]? ≠ some true) = true := by
    simp [hvisible, htexture]
  obtain ⟨p, hp⟩ := state.kindTint_isSome.mpr hvertices
  exact ⟨_, by rw [layerDraw, if_neg hshown, hp, Option.map_some]⟩

theorem particleDraw_some [Zero F] [One F] {textureOk : List Bool} {system : ParticleSystemState F}
    {index : Nat} {d : LayerDraw F} (h : particleDraw textureOk system index = some d) :
    (system.visible = true ∧ textureOk[index]? = some true ∧ 0 < system.vertexCount) ∧
      d.sceneOrder = system.sceneOrder ∧ d.layerIndex = maxLayers + index := by
  unfold particleDraw at h
  split at h
  next => exact nomatch h
  next hshown =>
    simp only [Bool.or_eq_true, Bool.not_eq_true', decide_eq_true_eq, not_or, Bool.not_eq_false,
      not_not] at hshown
    obtain rfl := Option.some.inj h
    exact ⟨⟨hshown.1.1, hshown.2, Nat.pos_of_ne_zero hshown.1.2⟩, rfl, rfl⟩

theorem particleDraw_isSome [Zero F] [One F] {textureOk : List Bool}
    {system : ParticleSystemState F} {index : Nat} (hvisible : system.visible = true)
    (htexture : textureOk[index]? = some true) (hvertices : 0 < system.vertexCount) :
    ∃ d, particleDraw textureOk system index = some d := by
  have hshown : ¬ (!system.visible || system.vertexCount = 0 ||
      textureOk[index]? ≠ some true) = true := by
    simp [hvisible, htexture, Nat.ne_of_gt hvertices]
  exact ⟨_, by rw [particleDraw, if_neg hshown]⟩

section Layers

variable [Mul F] [Neg F] (sinCos : F → F × F) (w : Worker F)

theorem frameDraws_orders : ((frameDraws sinCos w.layers w.textureOk w.materialOk).map
    (·.sceneOrder)).Sublist (w.layers.map (·.sceneOrder)) :=
  map_filterMap_zipIdx_fst (fun _ _ hd => (layerDraw_some hd).2.1) w.layers

theorem frameDraws_slots : ((frameDraws sinCos w.layers w.textureOk w.materialOk).map
    (·.layerIndex)).Sublist ((List.range w.layers.length).map id) :=
  map_filterMap_zipIdx_snd (k := id) (fun _ _ hd => (layerDraw_some hd).2.2) w.layers

theorem frameDraws_slot_lt {bound : Nat} (h : w.Numbered bound) {d : LayerDraw F}
    (hd : d ∈ frameDraws sinCos w.layers w.textureOk w.materialOk) : d.layerIndex < maxLayers := by
  have hmem := (frameDraws_slots sinCos w).subset (List.mem_map_of_mem hd)
  rw [List.map_id, List.mem_range] at hmem
  exact Nat.lt_of_lt_of_le hmem h.layers_le

end Layers

section Particles

variable [Zero F] [One F] (w : Worker F)

theorem particleDraws_orders : ((particleDraws w.particles w.particleTextureOk).map
    (·.sceneOrder)).Sublist (w.particles.map (·.sceneOrder)) :=
  map_filterMap_zipIdx_fst (fun _ _ hd => (particleDraw_some hd).2.1) w.particles

theorem particleDraws_slots : ((particleDraws w.particles w.particleTextureOk).map
    (·.layerIndex)).Sublist ((List.range w.particles.length).map (maxLayers + ·)) :=
  map_filterMap_zipIdx_snd (fun _ _ hd => (particleDraw_some hd).2.2) w.particles

theorem particleDraws_slot {bound : Nat} (h : w.Numbered bound) {d : LayerDraw F}
    (hd : d ∈ particleDraws w.particles w.particleTextureOk) :
    maxLayers ≤ d.layerIndex ∧ d.layerIndex < maxLayers + maxParticleSystems := by
  have hmem := (particleDraws_slots w).subset (List.mem_map_of_mem hd)
  obtain ⟨index, hindex, hslot⟩ := List.mem_map.mp hmem
  have hlt := List.mem_range.mp hindex
  have hcap := h.particles_le
  omega

end Particles

section Merged

variable [Zero F] [One F] [Mul F] [Neg F] (sinCos : F → F × F) (w : Worker F)

theorem mem_draws (d : LayerDraw F) :
    d ∈ w.draws sinCos ↔ d ∈ frameDraws sinCos w.layers w.textureOk w.materialOk ∨
      d ∈ particleDraws w.particles w.particleTextureOk := by
  rw [Worker.draws, mergedDraws_eq, List.mem_merge]

/-- What is in the list is an object of the frame. -/
theorem drawn_of_mem {d : LayerDraw F} (h : d ∈ w.draws sinCos) :
    w.Drawn d.sceneOrder d.layerIndex := by
  rcases (mem_draws sinCos w d).mp h with h | h
  · obtain ⟨⟨state, index⟩, hmem, hdraw⟩ := List.mem_filterMap.mp h
    obtain ⟨⟨hvisible, htexture, hvertices⟩, horder, hslot⟩ := layerDraw_some hdraw
    rw [horder, hslot]
    exact .layer (List.mem_zipIdx_iff_getElem?.mp hmem) hvisible htexture hvertices
  · obtain ⟨⟨system, index⟩, hmem, hdraw⟩ := List.mem_filterMap.mp h
    obtain ⟨⟨hvisible, htexture, hvertices⟩, horder, hslot⟩ := particleDraw_some hdraw
    rw [horder, hslot]
    exact .particles (List.mem_zipIdx_iff_getElem?.mp hmem) hvisible htexture hvertices

/-- Each object of the frame is in the list. -/
theorem mem_of_drawn {order slot : Nat} (h : w.Drawn order slot) :
    ∃ d ∈ w.draws sinCos, d.sceneOrder = order ∧ d.layerIndex = slot := by
  cases h with
  | layer h hvisible htexture hvertices =>
    obtain ⟨d, hd⟩ := layerDraw_isSome sinCos w.materialOk hvisible htexture hvertices
    refine ⟨d, (mem_draws sinCos w d).mpr (.inl ?_), (layerDraw_some hd).2⟩
    exact List.mem_filterMap.mpr ⟨(_, _), List.mem_zipIdx_iff_getElem?.mpr h, hd⟩
  | particles h hvisible htexture hvertices =>
    obtain ⟨d, hd⟩ := particleDraw_isSome hvisible htexture hvertices
    refine ⟨d, (mem_draws sinCos w d).mpr (.inr ?_), (particleDraw_some hd).2⟩
    exact List.mem_filterMap.mpr ⟨(_, _), List.mem_zipIdx_iff_getElem?.mpr h, hd⟩

variable {bound : Nat}

/-- The merged list is in the order of the file. -/
theorem draws_sorted (h : w.Numbered bound) :
    (w.draws sinCos).Pairwise fun a b => a.sceneOrder < b.sceneOrder := by
  rw [Worker.draws, mergedDraws_eq]
  exact merge_lt (h.split.sublist (frameDraws_orders sinCos w) (particleDraws_orders w))

/-- No two draws share a slot. -/
theorem draws_slots_nodup (h : w.Numbered bound) :
    ((w.draws sinCos).map (·.layerIndex)).Nodup := by
  rw [Worker.draws, mergedDraws_eq]
  refine ((List.merge_perm_append _).map _).nodup_iff.mpr ?_
  rw [List.map_append]
  refine List.nodup_append.mpr ⟨?_, ?_, ?_⟩
  · refine (frameDraws_slots sinCos w).nodup ?_
    rw [List.map_id]
    exact List.nodup_range
  · refine (particleDraws_slots w).nodup (List.nodup_range.map fun i j hij => ?_)
    exact Nat.add_left_cancel hij
  · intro i hi j hj hij
    obtain ⟨d, hd, rfl⟩ := List.mem_map.mp hi
    obtain ⟨d', hd', rfl⟩ := List.mem_map.mp hj
    have hlt := frameDraws_slot_lt sinCos w h hd
    have hle := (particleDraws_slot w h hd').1
    omega

end Merged

/-- **Draw lists.**  Whatever was written since the scene was parsed, the merged list is in the
strict order of the file, it has one entry for each visible object with its texture and its
vertices and no other, each with the slot of its object, and the slots of layers are apart from
those of particle systems. -/
theorem draws_correct [Zero F] [One F] [Mul F] [Neg F] (sinCos : F → F × F) {w : Worker F}
    (h : w.Reached) :
    ((w.draws sinCos).Pairwise fun a b => a.sceneOrder < b.sceneOrder) ∧
    (∀ order slot, w.Drawn order slot ↔
      ∃ d ∈ w.draws sinCos, d.sceneOrder = order ∧ d.layerIndex = slot) ∧
    ((w.draws sinCos).map (·.layerIndex)).Nodup ∧
    (∀ d ∈ frameDraws sinCos w.layers w.textureOk w.materialOk, d.layerIndex < maxLayers) ∧
    ∀ d ∈ particleDraws w.particles w.particleTextureOk,
      maxLayers ≤ d.layerIndex ∧ d.layerIndex < maxLayers + maxParticleSystems := by
  obtain ⟨bound, hnumbered⟩ := h.numbered
  refine ⟨draws_sorted sinCos w hnumbered, fun order slot => ⟨mem_of_drawn sinCos w, ?_⟩,
    draws_slots_nodup sinCos w hnumbered, fun d hd => frameDraws_slot_lt sinCos w hnumbered hd,
    fun d hd => particleDraws_slot w hnumbered hd⟩
  rintro ⟨d, hd, rfl, rfl⟩
  exact drawn_of_mem sinCos w hd

/-- A scene of an image, a particle system and a text. -/
def sampleObjects : List (ObjectKind Int) :=
  let props : LayerProps Int := ⟨1, true, (0, 0, 0), (5, 7), (1, 1), (2, 3), 0, 1, (1, 1, 1, 1)⟩
  [.image (.ok props), .particle (.ok ⟨1, true, 6, 1⟩), .text (.ok (props, (1, 0, 0, 1)))]

/-- The particle system has vertices, the text has none yet; `uploaded` tells whether the texture
of the system was. -/
def sampleWorker (uploaded : Bool) (r : Registry Int) : Worker Int :=
  (Worker.start r [true, true] [] [uploaded]).step (.particles 0 (.vertices 6))

theorem sampleWorker_reached (uploaded : Bool) :
    ∃ w : Worker Int, w.Reached ∧ w.particles.map (fun system => (system.visible,
        system.sceneOrder, system.vertexCount)) = [(true, 1, 6)] ∧
      w.particleTextureOk = [uploaded] := by
  have hparsed : ∃ r, sceneFromIr sampleObjects = .ok r := ⟨_, rfl⟩
  obtain ⟨r, h⟩ := hparsed
  refine ⟨sampleWorker uploaded r, .step (.start h _ _ _) _, ?_, rfl⟩
  obtain rfl := Except.ok.inj h
  rfl

/-- The particle system of the sample. -/
theorem sampleWorker_system {w : Worker Int} (h : w.particles.map (fun system => (system.visible,
    system.sceneOrder, system.vertexCount)) = [(true, 1, 6)]) :
    ∃ system, w.particles = [system] ∧ system.visible = true ∧ system.sceneOrder = 1 ∧
      system.vertexCount = 6 := by
  obtain ⟨system, hparticles, hvalues⟩ := List.map_eq_singleton_iff.mp h
  simp only [Prod.mk.injEq] at hvalues
  exact ⟨system, hparticles, hvalues⟩

theorem draws_correct_sample : ∃ w : Worker Int,
    (∃ d ∈ w.draws fun _ => (0, 1), d.sceneOrder = 1 ∧ d.layerIndex = 256) ∧
    (w.draws fun _ => (0, 1)).Pairwise fun a b => a.sceneOrder < b.sceneOrder := by
  obtain ⟨w, hreached, hsystem, huploaded⟩ := sampleWorker_reached true
  obtain ⟨system, hparticles, hvisible, horder, hvertices⟩ := sampleWorker_system hsystem
  have hcorrect := draws_correct (fun _ => (0, 1)) hreached
  refine ⟨w, (hcorrect.2.1 1 256).mp ?_, hcorrect.1⟩
  have hdrawn : w.Drawn system.sceneOrder (maxLayers + 0) := by
    refine .particles (by rw [hparticles]; rfl) hvisible (by rw [huploaded]; rfl) ?_
    rw [hvertices]
    decide
  rwa [horder] at hdrawn

/-- Vertices alone are not enough: a visible particle system whose texture was not uploaded has
vertices and is not drawn. -/
theorem vertices_not_drawn : ∃ w : Worker Int, w.Reached ∧
    ∃ system, w.particles = [system] ∧ system.visible = true ∧ 0 < system.vertexCount ∧
      ∀ d ∈ w.draws fun _ => (0, 1), d.layerIndex ≠ maxLayers := by
  obtain ⟨w, hreached, hsystem, huploaded⟩ := sampleWorker_reached false
  obtain ⟨system, hparticles, hvisible, -, hvertices⟩ := sampleWorker_system hsystem
  refine ⟨w, hreached, system, hparticles, hvisible, by omega, fun d hd hslot => ?_⟩
  have hdrawn := drawn_of_mem (fun _ => (0, 1)) w hd
  generalize d.sceneOrder = order, d.layerIndex = slot at hdrawn hslot
  cases hdrawn with
  | @layer index state h =>
    obtain ⟨bound, hnumbered⟩ := hreached.numbered
    have hlt := (List.getElem?_eq_some_iff.mp h).1
    have hle := hnumbered.layers_le
    omega
  | @particles index system' h hvisible' htexture =>
    obtain rfl : index = 0 := by omega
    rw [huploaded] at htexture
    exact nomatch htexture

end Kwe.Layers

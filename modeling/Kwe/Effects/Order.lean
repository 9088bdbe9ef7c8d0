import Kwe.Effects.Chain
import Kwe.Foundation.Deferral

/-!
When the queued actions of an effect chain mean what its passes mean in the
order of the file.

* `runActions_eq_exec`: actions are operations on the named buffers;
* `deferred_chainActions`: what is queued are these operations with the commands
  left for last;
* `preserves_iff`: the exact condition on a chain;
* `photo_misordered`: three chains that do not meet it.
-/

namespace Kwe.Effects

open Foundation.Deferral

/-! ## Names -/

theorem scopedTargetName_inj {layerIndex : Nat} {a b : String}
    (h : scopedTargetName layerIndex a = scopedTargetName layerIndex b) : a = b := by
  have hfull : ∀ name : String, name ++ "#obj" ++ toString layerIndex ≠ fullFrameBuffer := by
    intro name heq
    have hmem : '#' ∈ (name ++ "#obj" ++ toString layerIndex).toList := by simp
    rw [heq] at hmem
    exact absurd hmem (by decide)
  unfold scopedTargetName at h
  split at h
  next ha =>
    split at h
    next hb => exact ha.trans hb.symm
    next => exact absurd h.symm (ha ▸ hfull b)
  next =>
    split at h
    next hb => exact absurd h (hb ▸ hfull a)
    next =>
      have hlists := congrArg String.toList h
      simp only [String.toList_append, List.append_assoc] at hlists
      exact String.toList_injective (List.append_cancel_right hlists)

theorem pingpongTargetName_ne (layerIndex : Nat) (objectId : Option Int) (slot : Bool) :
    pingpongTargetName layerIndex objectId slot ≠ pingpongTargetName layerIndex objectId !slot := by
  intro h
  have hnames := scopedTargetName_inj h
  generalize "_rt_imageLayerComposite_" ++ toString (objectId.getD layerIndex) = base at hnames
  have hlists := congrArg String.toList hnames
  rw [String.toList_append, String.toList_append] at hlists
  have hletters := List.append_cancel_left hlists
  cases slot <;> exact absurd hletters (by decide)

/-! ## Actions are operations on buffers -/

/-- Actions are told apart by what they were planned from. -/
abbrev Label := PlannedMaterial ⊕ PlannedCommand

def targetNames (slots : List (Option MaterialTextureSource)) : List String :=
  slots.filterMap fun
    | some (.renderTarget name) => some name
    | _ => none

/-- The operation of an action; some commands do nothing. -/
def toOp (r : Renderer) (action : EffectFrameAction) : Option (Op Label String) :=
  match action with
  | .render material target => some ⟨.inl material, targetNames material.textureSlots, target⟩
  | .copy command =>
    if command.source = command.target then none
    else if !r.effectTargets command.source || !r.effectTargets command.target then none
    else some ⟨.inr command, [command.source, command.target], command.target⟩

def toOps (r : Renderer) (actions : List EffectFrameAction) : List (Op Label String) :=
  actions.filterMap (toOp r)

section Meaning

variable {Image : Type} (meaning : Meaning Image) (r : Renderer)

/-- The inputs of a material, with these contents for its render targets. -/
def fillSlots : List (Option MaterialTextureSource) → List Image → List (Option Image)
  | [], _ => []
  | none :: slots, contents => none :: fillSlots slots contents
  | some (.bytes bytes) :: slots, contents => meaning.texture bytes :: fillSlots slots contents
  | some (.renderTarget _) :: slots, contents => contents.head? :: fillSlots slots contents.tail

theorem fillSlots_targetNames (slots : List (Option MaterialTextureSource))
    (buffers : String → Image) :
    fillSlots meaning slots ((targetNames slots).map buffers) =
      slots.map (meaning.sample buffers) := by
  induction slots with
  | nil => rfl
  | cons slot slots ih =>
    match slot with
    | none => exact congrArg (none :: ·) ih
    | some (.bytes bytes) => exact congrArg (meaning.texture bytes :: ·) ih
    | some (.renderTarget name) => exact congrArg (some (buffers name) :: ·) ih

/-- What the operations of the actions compute. -/
def toMeaning : Foundation.Deferral.Meaning Label Image
  | .inl material, contents => meaning.shade material (fillSlots meaning material.textureSlots contents)
  | .inr command, [source, target] => meaning.copy command source target
  | .inr _, _ => meaning.shade ⟨none, []⟩ []

theorem runActions_eq_exec (buffers : String → Image) (actions : List EffectFrameAction) :
    actions.foldl (runAction meaning r) buffers =
      exec (toMeaning meaning) buffers (toOps r actions) := by
  induction actions generalizing buffers with
  | nil => rfl
  | cons action actions ih =>
    rw [List.foldl_cons, ih]
    unfold toOps
    cases action with
    | render material target =>
      rw [List.filterMap_cons_some (by rfl), exec_cons]
      unfold runAction Op.exec toMeaning Meaning.draw
      dsimp only
      rw [fillSlots_targetNames]
    | copy command =>
      unfold runAction copyEffectTarget
      dsimp only
      split
      next heq => rw [List.filterMap_cons_none (by simp [toOp, heq])]
      next hne =>
        split
        next hmissing => rw [List.filterMap_cons_none (by simp [toOp, hne, hmissing])]
        next hlive =>
          rw [List.filterMap_cons_some (by simp only [toOp, hne, hlive]; rfl), exec_cons]
          rfl

end Meaning

/-- Textures and passes that compute from the contents of buffers alone. -/
def ofMeaning {Image : Type} (f : Foundation.Deferral.Meaning Label Image) : Meaning Image where
  texture := fun _ => none
  shade := fun material inputs => f (.inl material) inputs.reduceOption
  copy := fun command source target => f (.inr command) [source, target]

theorem reduceOption_sample {Image : Type} (f : Foundation.Deferral.Meaning Label Image)
    (slots : List (Option MaterialTextureSource)) (buffers : String → Image) :
    (slots.map ((ofMeaning f).sample buffers)).reduceOption = (targetNames slots).map buffers := by
  induction slots with
  | nil => rfl
  | cons slot slots ih =>
    match slot with
    | none => exact ih
    | some (.bytes bytes) => exact ih
    | some (.renderTarget name) => exact congrArg (buffers name :: ·) ih

theorem runActions_ofMeaning {Image : Type} (f : Foundation.Deferral.Meaning Label Image)
    (r : Renderer) (buffers : String → Image) (actions : List EffectFrameAction) :
    actions.foldl (runAction (ofMeaning f) r) buffers = exec f buffers (toOps r actions) := by
  rw [runActions_eq_exec]
  have hops : ∀ op ∈ toOps r actions, ∀ s, op.exec (toMeaning (ofMeaning f)) s = op.exec f s := by
    intro op hop s
    obtain ⟨action, -, haction⟩ := List.mem_filterMap.mp hop
    cases action with
    | render material target =>
      cases haction
      unfold Op.exec toMeaning
      dsimp only
      rw [fillSlots_targetNames]
      exact congrArg _ (congrArg (f (.inl material)) (reduceOption_sample f _ s))
    | copy command =>
      unfold toOp at haction
      dsimp only at haction
      split at haction
      next => cases haction
      next =>
        split at haction
        next => cases haction
        next =>
          cases haction
          rfl
  generalize toOps r actions = ops at hops ⊢
  induction ops generalizing buffers with
  | nil => rfl
  | cons op ops ih =>
    obtain ⟨hop, hops⟩ := List.forall_mem_cons.mp hops
    rw [exec_cons, exec_cons, hop, ih _ hops]

/-! ## The actions of a chain -/

section Chain

variable (layerIndex : Nat) (layer : LayerSpec)

/-- The actions of the passes from this index in the order of the file, without
the pass that the layer is drawn with. -/
def chainActions : Nat → MaterialTextureSource → Bool → List EffectPass → List EffectFrameAction
  | _, _, _, [] => []
  | k, previous, slot, .command pass :: passes =>
    .copy (planCommand layerIndex k previous pass) :: chainActions (k + 1) previous slot passes
  | k, previous, slot, .material pass :: passes =>
    match pass.target with
    | some name =>
      .render (planMaterial layerIndex k previous pass) (scopedTargetName layerIndex name) ::
        chainActions (k + 1) (.renderTarget (scopedTargetName layerIndex name)) slot passes
    | none =>
      if passes.isEmpty then []
      else
        .render (planMaterial layerIndex k previous pass)
            (pingpongTargetName layerIndex layer.id slot) ::
          chainActions (k + 1) (.renderTarget (pingpongTargetName layerIndex layer.id slot)) (!slot)
            passes

/-- What is queued for a plan when nothing is left out. -/
def EffectChainPlan.actions (plan : EffectChainPlan) : List EffectFrameAction :=
  plan.intermediate.map (fun p => .render p.1 p.2) ++ plan.commands.map .copy

/-- Commands are left for last. -/
abbrev isCommand : Label → Bool := Sum.isRight

theorem isCommand_toOp_copy (r : Renderer) (command : PlannedCommand) :
    ∀ op ∈ (toOp r (.copy command)).toList, isCommand op.label = true := by
  intro op hop
  unfold toOp at hop
  dsimp only at hop
  split at hop
  next => cases hop
  next =>
    split at hop
    next => cases hop
    next =>
      obtain rfl := List.mem_singleton.mp hop
      rfl

theorem toOps_copy (r : Renderer) (command : PlannedCommand) (actions : List EffectFrameAction) :
    toOps r (.copy command :: actions) = (toOp r (.copy command)).toList ++ toOps r actions := by
  unfold toOps
  rw [List.filterMap_cons]
  cases toOp r (.copy command) <;> rfl

/-- The parts of the plan: the passes with a target, and the commands. -/
theorem toOps_plan (r : Renderer) (k : Nat) (previous : MaterialTextureSource) (slot : Bool)
    (passes : List EffectPass) :
    toOps r ((planPasses layerIndex layer k previous slot passes).intermediate.map
        fun p => .render p.1 p.2) =
      early isCommand (toOps r (chainActions layerIndex layer k previous slot passes)) ∧
    toOps r ((planPasses layerIndex layer k previous slot passes).commands.map .copy) =
      (toOps r (chainActions layerIndex layer k previous slot passes)).filter
        fun op => isCommand op.label := by
  fun_induction planPasses layerIndex layer k previous slot passes with
  | case1 => exact ⟨rfl, rfl⟩
  | case2 k previous slot pass passes plan ih =>
    have hop := isCommand_toOp_copy r (planCommand layerIndex k previous pass)
    unfold chainActions
    dsimp only
    rw [List.map_cons, toOps_copy, toOps_copy, early, List.filter_append, List.filter_append]
    refine ⟨?_, ?_⟩
    · rw [List.filter_eq_nil_iff.mpr fun op ho => by simp [hop op ho], List.nil_append]
      exact ih.1
    · rw [List.filter_eq_self.mpr hop]
      exact congrArg _ ih.2
  | case3 k previous slot pass passes planned name htarget target plan ih =>
    unfold chainActions
    rw [htarget]
    exact ⟨congrArg (List.cons _) ih.1, ih.2⟩
  | case4 k previous slot pass passes planned htarget hlast =>
    unfold chainActions
    rw [htarget]
    simp only [hlast]
    exact ⟨rfl, rfl⟩
  | case5 k previous slot pass passes planned htarget hlast target plan ih =>
    unfold chainActions
    rw [htarget]
    simp only [hlast]
    exact ⟨congrArg (List.cons _) ih.1, ih.2⟩

/-- The queued operations are those of the chain with the commands last. -/
theorem deferred_chainActions (r : Renderer) (k : Nat) (previous : MaterialTextureSource)
    (slot : Bool) (passes : List EffectPass) :
    toOps r (planPasses layerIndex layer k previous slot passes).actions =
      deferred isCommand (toOps r (chainActions layerIndex layer k previous slot passes)) := by
  obtain ⟨hrenders, hcopies⟩ := toOps_plan layerIndex layer r k previous slot passes
  unfold EffectChainPlan.actions deferred
  rw [← hrenders, ← hcopies]
  exact List.filterMap_append

theorem runPasses_buffers {Image : Type} (meaning : Meaning Image) (r : Renderer) (k : Nat)
    (previous : MaterialTextureSource) (slot : Bool) (passes : List EffectPass)
    (frame : Frame Image) :
    (runPasses meaning r layerIndex layer k previous slot passes frame).buffers =
      (chainActions layerIndex layer k previous slot passes).foldl (runAction meaning r)
        frame.buffers := by
  fun_induction runPasses meaning r layerIndex layer k previous slot passes frame with
  | case1 => rfl
  | case2 k previous slot pass passes frame ih => exact ih
  | case3 k previous slot pass passes frame output name htarget target ih =>
    unfold chainActions
    rw [htarget]
    exact ih
  | case4 k previous slot pass passes frame output htarget hlast =>
    unfold chainActions
    rw [htarget]
    simp [hlast]
  | case5 k previous slot pass passes frame output htarget hlast target ih =>
    unfold chainActions
    rw [htarget]
    simp only [hlast]
    exact ih

/-! ## What the layer shows -/

def EffectPass.untargeted : EffectPass → Bool
  | .material pass => pass.target.isNone
  | .command _ => false

/-- If any pass is untargeted, the last one is. -/
def EndsUntargeted (passes : List EffectPass) : Prop :=
  passes.any EffectPass.untargeted = true → passes.getLast?.any EffectPass.untargeted = true

instance (passes : List EffectPass) : Decidable (EndsUntargeted passes) :=
  inferInstanceAs (Decidable (_ → _))

theorem finalMaterial_isSome (k : Nat) (previous : MaterialTextureSource) (slot : Bool)
    (passes : List EffectPass) :
    (planPasses layerIndex layer k previous slot passes).finalMaterial.isSome =
      passes.getLast?.any EffectPass.untargeted := by
  fun_induction planPasses layerIndex layer k previous slot passes with
  | case1 => rfl
  | case2 k previous slot pass passes plan ih =>
    refine ih.trans ?_
    cases passes with
    | nil => rfl
    | cons => rw [List.getLast?_cons_cons]
  | case3 k previous slot pass passes planned name htarget target plan ih =>
    refine ih.trans ?_
    cases passes with
    | nil => simp [EffectPass.untargeted, htarget]
    | cons => rw [List.getLast?_cons_cons]
  | case4 k previous slot pass passes planned htarget hlast =>
    rw [List.isEmpty_iff.mp hlast]
    simp [EffectPass.untargeted, htarget]
  | case5 k previous slot pass passes planned htarget hlast target plan ih =>
    refine ih.trans ?_
    cases passes with
    | nil => exact absurd rfl hlast
    | cons => rw [List.getLast?_cons_cons]

section Image

variable {Image : Type} (meaning : Meaning Image) (r : Renderer)

/-- The final material draws what the last pass computes. -/
theorem runPasses_final {k : Nat} {previous : MaterialTextureSource} {slot : Bool}
    {passes : List EffectPass} {material : PlannedMaterial}
    (h : (planPasses layerIndex layer k previous slot passes).finalMaterial = some material)
    (frame : Frame Image) :
    (runPasses meaning r layerIndex layer k previous slot passes frame).image =
      some (meaning.draw
        (runPasses meaning r layerIndex layer k previous slot passes frame).buffers material) := by
  fun_induction runPasses meaning r layerIndex layer k previous slot passes frame with
  | case1 => cases h
  | case2 k previous slot pass passes frame ih => exact ih h
  | case3 k previous slot pass passes frame output name htarget target ih =>
    unfold planPasses at h
    rw [htarget] at h
    exact ih h
  | case4 k previous slot pass passes frame output htarget hlast =>
    unfold planPasses at h
    simp only [htarget, hlast] at h
    cases h
    rfl
  | case5 k previous slot pass passes frame output htarget hlast target ih =>
    unfold planPasses at h
    simp only [htarget, hlast] at h
    exact ih h

theorem runPasses_targeted (k : Nat) (previous : MaterialTextureSource) (slot : Bool)
    {passes : List EffectPass} (h : passes.any EffectPass.untargeted = false)
    (frame : Frame Image) :
    (runPasses meaning r layerIndex layer k previous slot passes frame).image = frame.image := by
  fun_induction runPasses meaning r layerIndex layer k previous slot passes frame with
  | case1 => rfl
  | case2 k previous slot pass passes frame ih => exact ih h
  | case3 k previous slot pass passes frame output name htarget target ih =>
    exact ih (Bool.or_eq_false_iff.mp h).2
  | case4 k previous slot pass passes frame output htarget hlast =>
    simp [EffectPass.untargeted, htarget] at h
  | case5 k previous slot pass passes frame output htarget hlast target ih =>
    simp [EffectPass.untargeted, htarget] at h

end Image

/-- Passes are told apart from the base material. -/
def fromPass : Meaning Bool where
  texture := fun _ => none
  shade := fun material _ => material.pass.isSome
  copy := fun _ source _ => source

theorem runPasses_fromPass (r : Renderer) (k : Nat) (previous : MaterialTextureSource)
    (slot : Bool) {passes : List EffectPass} (frame : Frame Bool)
    (h : passes.any EffectPass.untargeted = true ∨ frame.image = some true) :
    (runPasses fromPass r layerIndex layer k previous slot passes frame).image = some true := by
  fun_induction runPasses fromPass r layerIndex layer k previous slot passes frame with
  | case1 => exact h.resolve_left Bool.false_ne_true
  | case2 k previous slot pass passes frame ih => exact ih h
  | case3 k previous slot pass passes frame output name htarget target ih =>
    refine ih (h.imp_left fun hany => ?_)
    simpa [EffectPass.untargeted, htarget] using hany
  | case4 => rfl
  | case5 k previous slot pass passes frame output htarget hlast target ih => exact ih (.inr rfl)

/-! ## Passes and their own targets -/

/-- The buffer that a pass renders to. -/
def writtenName (slot : Bool) (pass : EffectMaterialPass) : String :=
  match pass.target with
  | some name => scopedTargetName layerIndex name
  | none => pingpongTargetName layerIndex layer.id slot

/-- No pass but the one that the layer is drawn with names the buffer that it
renders to. -/
def LiteralFree : Bool → List EffectPass → Prop
  | _, [] => True
  | slot, .command _ :: passes => LiteralFree slot passes
  | slot, .material pass :: passes =>
    (pass.target = none ∧ passes = [] ∨
      ∀ name, some (.renderTarget name) ∈ pass.textureSlots →
        scopedTargetName layerIndex name ≠ writtenName layerIndex layer slot pass) ∧
    LiteralFree (if pass.target.isNone then !slot else slot) passes

/-- What `previous` stands for after a pass with this target. -/
def outputSource (slot : Bool) : Option (Option String) → MaterialTextureSource
  | none => baseOutput layer
  | some (some name) => .renderTarget (scopedTargetName layerIndex name)
  | some none => .renderTarget (pingpongTargetName layerIndex layer.id !slot)

/-- A pass and the material pass before it render to different buffers.  Two
untargeted passes always do. -/
def Differ (slot : Bool) : Option (Option String) → EffectMaterialPass → Prop
  | none, pass => baseOutput layer ≠ .renderTarget (writtenName layerIndex layer slot pass)
  | some none, ⟨_, none⟩ => True
  | some none, ⟨_, some name⟩ =>
    pingpongTargetName layerIndex layer.id (!slot) ≠ scopedTargetName layerIndex name
  | some (some before), ⟨_, none⟩ =>
    scopedTargetName layerIndex before ≠ pingpongTargetName layerIndex layer.id slot
  | some (some before), ⟨_, some name⟩ => before ≠ name

instance (slot : Bool) : ∀ (before : Option (Option String)) (pass : EffectMaterialPass),
    Decidable (Differ layerIndex layer slot before pass)
  | none, _ => inferInstanceAs (Decidable (_ ≠ _))
  | some none, ⟨_, none⟩ => inferInstanceAs (Decidable True)
  | some none, ⟨_, some _⟩ => inferInstanceAs (Decidable (_ ≠ _))
  | some (some _), ⟨_, none⟩ => inferInstanceAs (Decidable (_ ≠ _))
  | some (some _), ⟨_, some _⟩ => inferInstanceAs (Decidable (_ ≠ _))

theorem differ_iff (slot : Bool) (before : Option (Option String)) (pass : EffectMaterialPass) :
    Differ layerIndex layer slot before pass ↔
      outputSource layerIndex layer slot before ≠
        .renderTarget (writtenName layerIndex layer slot pass) := by
  obtain ⟨slots, target⟩ := pass
  match before, target with
  | none, _ => exact Iff.rfl
  | some none, none =>
    refine iff_of_true trivial fun h => ?_
    exact pingpongTargetName_ne layerIndex layer.id slot (MaterialTextureSource.renderTarget.inj h).symm
  | some none, some name => simp [Differ, outputSource, writtenName]
  | some (some before), none => simp [Differ, outputSource, writtenName]
  | some (some before), some name =>
    simp only [Differ, outputSource, writtenName, ne_eq, MaterialTextureSource.renderTarget.injEq]
    exact not_congr ⟨fun h => h ▸ rfl, scopedTargetName_inj⟩

/-- A pass that samples `previous` renders to another buffer than the material
pass before it. -/
def Apart : Bool → Option (Option String) → List EffectPass → Prop
  | _, _, [] => True
  | slot, before, .command _ :: passes => Apart slot before passes
  | slot, before, .material pass :: passes =>
    (pass.target = none ∧ passes = [] ∨ some .previous ∉ pass.textureSlots ∨
      Differ layerIndex layer slot before pass) ∧
    Apart (if pass.target.isNone then !slot else slot) (some pass.target) passes

instance Apart.decidable : ∀ (slot : Bool) (before : Option (Option String))
    (passes : List EffectPass), Decidable (Apart layerIndex layer slot before passes)
  | _, _, [] => inferInstanceAs (Decidable True)
  | slot, before, .command _ :: passes => Apart.decidable slot before passes
  | slot, _, .material pass :: passes =>
    have := Apart.decidable (if pass.target.isNone then !slot else slot) (some pass.target) passes
    inferInstanceAs (Decidable ((_ ∨ _ ∨ _) ∧ _))

/-- No planned pass samples the buffer that it renders to. -/
def EffectChainPlan.SelfFree (plan : EffectChainPlan) : Prop :=
  ∀ p ∈ plan.intermediate, effectPassSamplesItsOwnTarget p.1.textureSlots p.2 = false

theorem samplesItsOwnTarget_iff (k : Nat) (previous : MaterialTextureSource)
    (pass : EffectMaterialPass) (target : String) :
    effectPassSamplesItsOwnTarget (planMaterial layerIndex k previous pass).textureSlots target =
        true ↔
      (∃ name, some (.renderTarget name) ∈ pass.textureSlots ∧
        scopedTargetName layerIndex name = target) ∨
      some .previous ∈ pass.textureSlots ∧ previous = .renderTarget target := by
  unfold effectPassSamplesItsOwnTarget planMaterial effectPassTextureSources
  rw [List.contains_iff_mem, List.mem_map]
  constructor
  · rintro ⟨slot, hslot, heq⟩
    obtain ⟨entry, rfl, hentry⟩ := Option.map_eq_some_iff.mp heq
    cases entry with
    | texture bytes => cases hentry
    | renderTarget name =>
      exact .inl ⟨name, hslot, MaterialTextureSource.renderTarget.inj hentry⟩
    | previous => exact .inr ⟨hslot, hentry⟩
  · rintro (⟨name, hslot, rfl⟩ | ⟨hslot, rfl⟩)
    · exact ⟨_, hslot, rfl⟩
    · exact ⟨_, hslot, rfl⟩

/-- A pass that does not name its target samples it only through `previous`. -/
theorem planMaterial_apart (slot : Bool) (pass : EffectMaterialPass) (k : Nat)
    (before : Option (Option String))
    (hliteral : ∀ name, some (.renderTarget name) ∈ pass.textureSlots →
      scopedTargetName layerIndex name ≠ writtenName layerIndex layer slot pass) :
    effectPassSamplesItsOwnTarget
        (planMaterial layerIndex k (outputSource layerIndex layer slot before) pass).textureSlots
        (writtenName layerIndex layer slot pass) = false ↔
      some .previous ∉ pass.textureSlots ∨ Differ layerIndex layer slot before pass := by
  rw [← Bool.not_eq_true, samplesItsOwnTarget_iff, differ_iff]
  constructor
  · intro h
    by_cases hprevious : some .previous ∈ pass.textureSlots
    · exact .inr fun heq => h (.inr ⟨hprevious, heq⟩)
    · exact .inl hprevious
  · rintro h (⟨name, hname, heq⟩ | ⟨hprevious, heq⟩)
    · exact hliteral name hname heq
    · exact h.elim (fun hnot => hnot hprevious) fun hdiffer => hdiffer heq

theorem selfFree_cons {plan : EffectChainPlan} {p : PlannedMaterial × String} :
    ({ plan with intermediate := p :: plan.intermediate } : EffectChainPlan).SelfFree ↔
      effectPassSamplesItsOwnTarget p.1.textureSlots p.2 = false ∧ plan.SelfFree :=
  List.forall_mem_cons

/-- The plan of a chain has no pass that samples what it renders to exactly when
the passes that sample `previous` are apart from those before them. -/
theorem selfFree_iff {slot : Bool} {passes : List EffectPass} (k : Nat)
    (before : Option (Option String)) (hliteral : LiteralFree layerIndex layer slot passes) :
    (planPasses layerIndex layer k (outputSource layerIndex layer slot before) slot
        passes).SelfFree ↔
      Apart layerIndex layer slot before passes := by
  induction passes generalizing k slot before with
  | nil => exact iff_of_true (fun _ hp => absurd hp List.not_mem_nil) trivial
  | cons pass passes ih =>
    cases pass with
    | command pass => exact ih (k + 1) before hliteral
    | material pass =>
      obtain ⟨hown, hrest⟩ := hliteral
      have htail := ih (k + 1) (some pass.target) hrest
      have hpass := planMaterial_apart layerIndex layer slot pass k before
      unfold planPasses Apart
      unfold writtenName at hpass hown
      cases htarget : pass.target with
      | some name =>
        rw [htarget] at htail hpass hown
        simp only [Option.isNone_some, Bool.false_eq_true, if_false] at htail ⊢
        rw [selfFree_cons]
        have hnames := hown.resolve_left fun h => by simp at h
        exact and_congr ((hpass hnames).trans (by simp)) htail
      | none =>
        rw [htarget] at htail hpass hown
        simp only [Option.isNone_none, if_true] at htail ⊢
        cases passes with
        | nil =>
          exact iff_of_true (fun _ hp => absurd hp List.not_mem_nil) ⟨.inl (by simp), trivial⟩
        | cons next rest =>
          have hnames := hown.resolve_left fun h => by simp at h
          unfold outputSource at htail
          rw [Bool.not_not] at htail
          simp only [List.isEmpty_cons, Bool.false_eq_true, if_false]
          rw [selfFree_cons]
          exact and_congr ((hpass hnames).trans (by simp)) htail

/-! ## What is queued -/

/-- The labels of the operations of a chain are distinct: each comes from a pass
of its own. -/
def Label.pass : Label → Option Nat
  | .inl material => material.pass
  | .inr command => some command.pass

/-- Distinct labels of passes from this index on. -/
def Labelled (k : Nat) (ops : List (Op Label String)) : Prop :=
  (∀ op ∈ ops, ∃ j, op.label.pass = some j ∧ k ≤ j) ∧ (ops.map Op.label).Nodup

theorem Labelled.cons {k : Nat} {op : Op Label String} {ops : List (Op Label String)}
    (h : Labelled (k + 1) ops) (hop : op.label.pass = some k) : Labelled k (op :: ops) := by
  refine ⟨List.forall_mem_cons.mpr ⟨⟨k, hop, le_rfl⟩, fun other hother => ?_⟩,
    List.nodup_cons.mpr ⟨fun hmem => ?_, h.2⟩⟩
  · obtain ⟨j, hj, hle⟩ := h.1 other hother
    exact ⟨j, hj, by omega⟩
  · obtain ⟨other, hother, heq⟩ := List.mem_map.mp hmem
    obtain ⟨j, hj, hle⟩ := h.1 other hother
    rw [heq, hop] at hj
    cases hj
    omega

theorem Labelled.mono {k : Nat} {ops : List (Op Label String)} (h : Labelled (k + 1) ops) :
    Labelled k ops :=
  ⟨fun op hop => (h.1 op hop).imp fun _ hj => ⟨hj.1, by omega⟩, h.2⟩

theorem toOps_labelled (r : Renderer) (k : Nat) (previous : MaterialTextureSource) (slot : Bool)
    (passes : List EffectPass) :
    Labelled k (toOps r (chainActions layerIndex layer k previous slot passes)) := by
  fun_induction chainActions layerIndex layer k previous slot passes with
  | case1 => exact ⟨nofun, List.nodup_nil⟩
  | case2 k previous slot pass passes ih =>
    rw [toOps_copy]
    cases hop : toOp r (.copy (planCommand layerIndex k previous pass)) with
    | none => exact ih.mono
    | some op =>
      refine ih.cons ?_
      unfold toOp at hop
      dsimp only at hop
      split at hop
      next => cases hop
      next =>
        split at hop
        next => cases hop
        next =>
          cases hop
          rfl
  | case3 k previous slot pass passes name htarget ih => exact ih.cons rfl
  | case4 => exact ⟨nofun, List.nodup_nil⟩
  | case5 k previous slot pass passes htarget hlast ih => exact ih.cons rfl

theorem toOps_getLast (r : Renderer) (actions : List EffectFrameAction) :
    ∀ op ∈ toOps r actions, isCommand op.label = true → op.reads.getLast? = some op.target := by
  intro op hop hcommand
  obtain ⟨action, -, haction⟩ := List.mem_filterMap.mp hop
  cases action with
  | render material target =>
    cases haction
    cases hcommand
  | copy command =>
    unfold toOp at haction
    dsimp only at haction
    split at haction
    next => cases haction
    next =>
      split at haction
      next => cases haction
      next =>
        cases haction
        rfl

/-- All passes of a layer compile: the layer is drawn with a material that does,
and so do the passes that render to a target, which exists, is not named by the
pass itself, and finds room for the pass. -/
structure AllCompile (r : Renderer) : Prop where
  decision : passthroughDrawDecision layer.material
    ((layerPlan layerIndex layer).bind EffectChainPlan.finalMaterial).isSome layer.size
    r.sceneResolution r.canvas = none
  material : ∃ material, drawnMaterial layer (layerPlan layerIndex layer) = some material ∧
    r.compiles material = true ∧
    ((layerPlan layerIndex layer).isNone &&
      textureSlotsAreBareRenderTargetOnly material.textureSlots &&
      !(textureSlotsReferenceFullFrameBuffer material.textureSlots &&
        textureSlotsReferenceOnlyFullFrameBuffer material.textureSlots)) = false
  passes : ∀ p ∈ (planEffectChain layerIndex layer).intermediate,
    r.compiles p.1 = true ∧ r.effectTargets p.2 = true
  literals : LiteralFree layerIndex layer false layer.passes
  bindings : r.passBindings + (planEffectChain layerIndex layer).intermediate.length ≤
    maxEffectPassBindings
  actions : r.frameActions + (planEffectChain layerIndex layer).intermediate.length +
    (planEffectChain layerIndex layer).commands.length ≤ maxEffectFrameActions

theorem queueRenders_all {r : Renderer} {bound queued : Nat}
    {passes : List (PlannedMaterial × String)}
    (hfree : ∀ p ∈ passes, effectPassSamplesItsOwnTarget p.1.textureSlots p.2 = false)
    (hcompile : ∀ p ∈ passes, r.compiles p.1 = true ∧ r.effectTargets p.2 = true)
    (hbound : bound + passes.length ≤ maxEffectPassBindings)
    (hqueued : queued + passes.length ≤ maxEffectFrameActions) :
    queueRenders r bound queued passes = passes.map fun p => .render p.1 p.2 := by
  induction passes generalizing bound queued with
  | nil => rfl
  | cons p passes ih =>
    obtain ⟨hp, hrest⟩ := List.forall_mem_cons.mp hfree
    obtain ⟨⟨hc, ht⟩, hcompiles⟩ := List.forall_mem_cons.mp hcompile
    rw [List.length_cons] at hbound hqueued
    obtain ⟨material, target⟩ := p
    dsimp only at hp hc ht
    have hfew : ¬ maxEffectPassBindings ≤ bound := by omega
    have hroom : ¬ maxEffectFrameActions ≤ queued := by omega
    unfold queueRenders
    rw [if_neg (by simp [hp]), if_neg (by simp [hc, ht, hfew]), if_neg hroom,
      ih hrest hcompiles (by omega) (by omega)]
    rfl

theorem passes_of_isEmpty {layer : LayerSpec} (h : layer.effects.isEmpty = true) :
    layer.passes = [] := by
  unfold LayerSpec.passes
  rw [List.isEmpty_iff.mp h]
  rfl

theorem layerPlan_final :
    (layerPlan layerIndex layer).bind EffectChainPlan.finalMaterial =
      (planEffectChain layerIndex layer).finalMaterial := by
  unfold layerPlan
  split
  next hempty =>
    unfold planEffectChain
    rw [passes_of_isEmpty hempty]
    rfl
  next => rfl

theorem compileMaterialLayer_all {r : Renderer} (h : AllCompile layerIndex layer r)
    (hfree : (planEffectChain layerIndex layer).SelfFree) :
    compileMaterialLayer r layerIndex layer =
      (drawnMaterial layer (layerPlan layerIndex layer),
        (planEffectChain layerIndex layer).actions) := by
  obtain ⟨material, hdrawn, hcompiles, hbare⟩ := h.material
  unfold compileMaterialLayer
  dsimp only
  rw [h.decision, hdrawn]
  dsimp only
  rw [if_neg (Bool.eq_false_iff.mp hbare), if_neg (by simp [hcompiles])]
  unfold layerPlan
  split
  next hnone =>
    split at hnone
    next hempty =>
      unfold planEffectChain
      rw [passes_of_isEmpty hempty]
      rfl
    next => cases hnone
  next plan hplan =>
    split at hplan
    next => cases hplan
    next =>
      cases hplan
      have hroom := h.actions
      rw [queueRenders_all hfree h.passes h.bindings (by omega), List.length_map]
      unfold queueCopies EffectChainPlan.actions
      rw [List.take_of_length_le (by omega)]

/-! ## The order of the file -/

/-- What is queued and drawn for a layer means what its passes mean in the order
of the file, whatever they compute, and no pass samples what it renders to. -/
structure Preserves (r : Renderer) : Prop where
  frame : ∀ (Image : Type) (meaning : Meaning Image) (buffers : String → Image),
    renderFrame meaning r buffers (compileMaterialLayer r layerIndex layer) =
      fileOrder meaning r layerIndex layer buffers
  selfFree : (planEffectChain layerIndex layer).SelfFree

/-- The condition on a chain.  If it has an untargeted pass, its last pass is
one; the passes behind a command, but for the one that the layer is drawn with,
neither render to the buffers of the command nor leave anything behind that
depends on what it wrote; and a pass that samples `previous` renders to another
buffer than the material pass before it. -/
structure Orderly (r : Renderer) : Prop where
  last : EndsUntargeted layer.passes
  commands : Deferrable isCommand
    (toOps r (chainActions layerIndex layer 0 (baseOutput layer) false layer.passes))
  apart : Apart layerIndex layer false none layer.passes

theorem fileOrder_buffers {Image : Type} (meaning : Meaning Image) (r : Renderer)
    (buffers : String → Image) :
    (fileOrder meaning r layerIndex layer buffers).buffers =
      (chainActions layerIndex layer 0 (baseOutput layer) false layer.passes).foldl
        (runAction meaning r) buffers := by
  unfold fileOrder
  dsimp only
  split <;> exact runPasses_buffers ..

/-- The layer shows the same when the buffers hold the same. -/
theorem fileOrder_image {Image : Type} (meaning : Meaning Image) (r : Renderer)
    (buffers : String → Image) (hlast : EndsUntargeted layer.passes) :
    (fileOrder meaning r layerIndex layer buffers).image =
      (drawnMaterial layer (layerPlan layerIndex layer)).map
        (meaning.draw (fileOrder meaning r layerIndex layer buffers).buffers) := by
  unfold drawnMaterial
  rw [layerPlan_final]
  cases hfinal : (planEffectChain layerIndex layer).finalMaterial with
  | some material =>
    have himage := runPasses_final layerIndex layer meaning r hfinal ⟨none, buffers⟩
    unfold fileOrder
    dsimp only
    rw [himage]
    exact himage
  | none =>
    have hnone : layer.passes.any EffectPass.untargeted = false := by
      cases hany : layer.passes.any EffectPass.untargeted with
      | false => rfl
      | true =>
        have hsome := hlast hany
        rw [← finalMaterial_isSome layerIndex layer 0 (baseOutput layer) false] at hsome
        unfold planEffectChain at hfinal
        rw [hfinal] at hsome
        cases hsome
    have himage := runPasses_targeted layerIndex layer meaning r 0 (baseOutput layer) false hnone
      ⟨none, buffers⟩
    unfold fileOrder
    dsimp only
    rw [himage]
    dsimp only
    rw [Option.map_map]
    rfl

variable {layerIndex layer}

theorem Preserves.orderly {r : Renderer} (hpreserves : Preserves layerIndex layer r)
    (h : AllCompile layerIndex layer r) : Orderly layerIndex layer r := by
  obtain ⟨hframe, hfree⟩ := hpreserves
  rw [compileMaterialLayer_all layerIndex layer h hfree] at hframe
  refine ⟨fun hany => ?_, ?_, (selfFree_iff layerIndex layer 0 none h.literals).mp hfree⟩
  · cases hlast : layer.passes.getLast?.any EffectPass.untargeted with
    | true => rfl
    | false =>
      -- the layer shows its base material, and not what a pass computes
      have himage := congrArg Frame.image (hframe Bool fromPass fun _ => false)
      have hpass := runPasses_fromPass layerIndex layer r 0 (baseOutput layer) false
        ⟨none, fun _ => false⟩ (.inl hany)
      have hshown : (fileOrder fromPass r layerIndex layer fun _ => false).image = some true := by
        unfold fileOrder
        dsimp only
        rw [hpass]
        exact hpass
      have hnone : (planEffectChain layerIndex layer).finalMaterial = none := by
        have hsome := finalMaterial_isSome layerIndex layer 0 (baseOutput layer) false layer.passes
        rw [hlast] at hsome
        exact Option.not_isSome_iff_eq_none.mp (by rw [planEffectChain, hsome]; decide)
      rw [hshown] at himage
      unfold renderFrame drawnMaterial at himage
      rw [layerPlan_final, hnone] at himage
      cases hmaterial : layer.material with
      | none => simp [hmaterial] at himage
      | some material => simp [hmaterial, fromPass, Meaning.draw] at himage
  · refine deferrable_of_forall (toOps_labelled layerIndex layer r 0 _ false _).2
      (toOps_getLast r _) fun f s => ?_
    have hbuffers := congrArg Frame.buffers (hframe Bool (ofMeaning f) s)
    rw [fileOrder_buffers, runActions_ofMeaning] at hbuffers
    unfold renderFrame at hbuffers
    dsimp only at hbuffers
    rw [runActions_ofMeaning, planEffectChain, deferred_chainActions] at hbuffers
    exact hbuffers

theorem Orderly.preserves {r : Renderer} (horderly : Orderly layerIndex layer r)
    (h : AllCompile layerIndex layer r) : Preserves layerIndex layer r := by
  obtain ⟨hlast, hcommands, hapart⟩ := horderly
  have hfree : (planEffectChain layerIndex layer).SelfFree :=
    (selfFree_iff layerIndex layer 0 none h.literals).mpr hapart
  refine ⟨fun Image meaning buffers => ?_, hfree⟩
  rw [compileMaterialLayer_all layerIndex layer h hfree]
  have hbuffers : (planEffectChain layerIndex layer).actions.foldl (runAction meaning r) buffers =
      (fileOrder meaning r layerIndex layer buffers).buffers := by
    rw [fileOrder_buffers, runActions_eq_exec, runActions_eq_exec, planEffectChain,
      deferred_chainActions, exec_deferred hcommands]
  have himage := fileOrder_image layerIndex layer meaning r buffers hlast
  unfold renderFrame
  dsimp only
  rw [hbuffers, ← himage]

/-- **The order of the file is preserved exactly for orderly chains.** -/
theorem preserves_iff {r : Renderer} (h : AllCompile layerIndex layer r) :
    Preserves layerIndex layer r ↔ Orderly layerIndex layer r :=
  ⟨fun hpreserves => hpreserves.orderly h, fun horderly => horderly.preserves h⟩

end Chain

/-! ## Chains in and out of order -/

/-- A photo with one visible effect. -/
def photo (passes : List EffectPass) : LayerSpec where
  id := some 46
  size := (1, 1)
  material := some ⟨[some (.bytes [])], false, false⟩
  effects := [⟨true, passes⟩]

/-- Everything compiles, and all targets exist. -/
def willing : Renderer where
  compiles := fun _ => true
  effectTargets := fun _ => true
  passBindings := 0
  frameActions := 0
  sceneResolution := none
  canvas := (1, 1)

def samplesPrevious (target : Option String) : EffectPass := .material ⟨[some .previous], target⟩

def copies (source target : String) : EffectPass := .command ⟨.copy, source, target⟩

theorem photo_allCompile {passes : List EffectPass}
    (hliteral : LiteralFree 0 (photo passes) false passes)
    (hbindings : (planEffectChain 0 (photo passes)).intermediate.length ≤ maxEffectPassBindings)
    (hactions : (planEffectChain 0 (photo passes)).intermediate.length +
      (planEffectChain 0 (photo passes)).commands.length ≤ maxEffectFrameActions) :
    AllCompile 0 (photo passes) willing := by
  have hpasses : (photo passes).passes = passes := List.append_nil passes
  refine ⟨rfl, ?_, fun _ _ => ⟨rfl, rfl⟩, by rw [hpasses]; exact hliteral, ?_, ?_⟩
  · unfold drawnMaterial
    cases (layerPlan 0 (photo passes)).bind EffectChainPlan.finalMaterial with
    | none => exact ⟨_, rfl, rfl, rfl⟩
    | some material => exact ⟨_, rfl, rfl, rfl⟩
  · exact (Nat.zero_add _).symm ▸ hbindings
  · rw [show willing.frameActions = 0 from rfl, Nat.zero_add]
    exact hactions

theorem preserves_photo :
    Preserves 0 (photo [samplesPrevious none, samplesPrevious (some "_rt_half"),
      copies "_rt_half" "_rt_kept", samplesPrevious none]) willing := by
  refine (preserves_iff (photo_allCompile ?_ (by decide +kernel) (by decide +kernel))).mpr
    ⟨by decide +kernel, by decide +kernel, by decide +kernel⟩
  simp [LiteralFree, samplesPrevious, copies]

/-- A chain that goes on behind its last untargeted pass shows the base material,
a command between passes is executed behind them, and of two passes in a row
with one target the second samples what it renders to. -/
theorem photo_misordered :
    (AllCompile 0 (photo [samplesPrevious none, samplesPrevious (some "_rt_half")]) willing ∧
      ¬Preserves 0 (photo [samplesPrevious none, samplesPrevious (some "_rt_half")]) willing) ∧
    (AllCompile 0 (photo [copies "_rt_half" "_rt_kept", samplesPrevious (some "_rt_half"),
        samplesPrevious none]) willing ∧
      ¬Preserves 0 (photo [copies "_rt_half" "_rt_kept", samplesPrevious (some "_rt_half"),
        samplesPrevious none]) willing) ∧
    AllCompile 0 (photo [samplesPrevious (some "_rt_half"), samplesPrevious (some "_rt_half"),
        samplesPrevious none]) willing ∧
      ¬Preserves 0 (photo [samplesPrevious (some "_rt_half"), samplesPrevious (some "_rt_half"),
        samplesPrevious none]) willing := by
  have htail : AllCompile 0 (photo [samplesPrevious none, samplesPrevious (some "_rt_half")])
      willing :=
    photo_allCompile (by simp [LiteralFree, samplesPrevious]) (by decide +kernel)
      (by decide +kernel)
  have hbetween : AllCompile 0 (photo [copies "_rt_half" "_rt_kept",
      samplesPrevious (some "_rt_half"), samplesPrevious none]) willing :=
    photo_allCompile (by simp [LiteralFree, samplesPrevious, copies]) (by decide +kernel)
      (by decide +kernel)
  have hrepeated : AllCompile 0 (photo [samplesPrevious (some "_rt_half"),
      samplesPrevious (some "_rt_half"), samplesPrevious none]) willing :=
    photo_allCompile (by simp [LiteralFree, samplesPrevious]) (by decide +kernel)
      (by decide +kernel)
  refine ⟨⟨htail, fun h => ?_⟩, ⟨hbetween, fun h => ?_⟩, hrepeated, fun h => ?_⟩
  · exact absurd (h.orderly htail).last (by decide +kernel)
  · exact absurd (h.orderly hbetween).commands (by decide +kernel)
  · exact absurd (h.orderly hrepeated).apart (by decide +kernel)

end Kwe.Effects

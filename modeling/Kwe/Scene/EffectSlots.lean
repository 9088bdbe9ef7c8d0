import Kwe.Scene.EffectFiles

/-!
The texture slots of effect passes.

* `length_references_le`: how many assets are looked up;
* `resolvePasses_spec`: the overrides of the material passes;
* `slotsRight_iff`: when a pass shows what the highest source names;
* `effects_right_iff`: when all passes of an object do.
-/

namespace Kwe.Scene

open Foundation Foundation.Logged

section Effects

variable {F : Type} {fromSlice : List UInt8 → Option Json} {positiveF32 : Json → Option F} {one : F}
  {lookup : String → Option (List UInt8)}

/-! ## Lookups -/

theorem length_look (reference : String) : (look lookup reference).log.length ≤ 1 :=
  Nat.le_refl 1

theorem length_resolveTextureSlotName (name : String) :
    (resolveTextureSlotName lookup name).log.length ≤ 1 := by
  unfold resolveTextureSlotName
  split
  · exact Nat.zero_le 1
  split
  · exact Nat.zero_le 1
  · refine length_bind_le (n := 0) (length_look _) fun bytes => ?_
    exact length_ofOption_bind_le fun bytes => Nat.le_refl 0

theorem length_resolveSlot (names : Names) (index : Nat) :
    (resolveSlot lookup names index).log.length ≤ 1 := by
  unfold resolveSlot
  split
  · exact Nat.zero_le 1
  · exact length_bind_le (n := 0) (length_resolveTextureSlotName _) fun slot => Nat.le_refl 0

theorem length_resolveMaterialPass (passObject : Json.Fields) (override : Option PassOverride) :
    (resolveMaterialPass fromSlice lookup passObject override).log.length ≤ 9 := by
  unfold resolveMaterialPass
  refine length_ofOption_bind_le fun materialRef => ?_
  refine length_bind_le (n := 8) (length_look _) fun bytes => ?_
  refine length_ofOption_bind_le fun pass0 => ?_
  exact length_bind_le (n := 0) (length_forEach_le (n := 1) (length_resolveSlot _) _)
    fun slots => Nat.le_refl 0

theorem length_resolvePasses (overrides : List Json) (overrideIndex : Nat) (raw : List Json) :
    (resolvePasses fromSlice lookup overrides overrideIndex raw).log.length ≤ raw.length * 9 := by
  induction raw generalizing overrideIndex with
  | nil => exact Nat.zero_le _
  | cons entry raw ih =>
    rw [resolvePasses, List.length_cons, Nat.add_mul, Nat.one_mul, Nat.add_comm (raw.length * 9)]
    refine length_ofOption_bind_le fun passObject => ?_
    split
    · refine Nat.le_trans (length_ofOption_bind_le (n := raw.length * 9) fun command => ?_)
        (Nat.le_add_left _ _)
      exact length_bind_le (n := 0) (ih _) fun passes => Nat.le_refl 0
    · refine length_bind_le (length_resolveMaterialPass _ _) fun material => ?_
      exact length_bind_le (n := 0) (ih _) fun passes => Nat.le_refl 0

theorem length_resolveEntry (entry : Json) :
    (resolveEntry fromSlice positiveF32 one lookup entry).log.length ≤ 145 := by
  unfold resolveEntry
  refine length_ofOption_bind_le fun object => length_ofOption_bind_le fun fileRef => ?_
  refine length_bind_le (n := 144) (length_look _) fun bytes => ?_
  refine length_ofOption_bind_le fun root => ?_
  refine length_bind_le (n := 0) ?_ fun spec => Nat.le_refl 0
  unfold parseEffectSpec
  refine length_ofOption_bind_le fun raw => ?_
  split
  · exact Nat.zero_le _
  · refine length_bind_le (n := 0) (Nat.le_trans (length_resolvePasses _ _ _) ?_)
      fun passes => Nat.le_refl 0
    have htake := List.length_take_le maxPassesPerEffect raw
    simp only [maxPassesPerEffect] at htake ⊢
    omega

theorem length_references_le (entries : List Json) :
    (resolveObjectEffects fromSlice positiveF32 one lookup entries).2.length ≤ 4640 := by
  have hall : ∀ entries : List Json,
      ((entries.map (resolveEntry fromSlice positiveF32 one lookup)).flatMap
        (·.log)).length ≤ entries.length * 145 := by
    intro entries
    induction entries with
    | nil => exact Nat.zero_le _
    | cons entry entries ih =>
      rw [List.map_cons, List.flatMap_cons, List.length_append, List.length_cons, Nat.add_mul,
        Nat.one_mul, Nat.add_comm]
      exact Nat.add_le_add ih (length_resolveEntry entry)
  have htake := List.length_take_le maxEffectsPerObject entries
  have hlength := hall (entries.take maxEffectsPerObject)
  simp only [resolveObjectEffects, maxEffectsPerObject] at htake hlength ⊢
  omega

/-! ## Overrides -/

def isMaterial (entry : Json) : Bool := (asObject entry).any (!isCommand ·)

/-- The material passes before the one at `j`. -/
def materialsBefore (raw : List Json) (j : Nat) : Nat := (raw.take j).countP isMaterial

theorem asObject_eq {entry : Json} {fields : Json.Fields} (h : asObject entry = some fields) :
    entry = .object fields := by
  cases entry with
  | object fields' =>
    obtain rfl := Option.some.inj h
    rfl
  | _ => cases h

/-- **Passes.**  The `j`-th pass is resolved from the `j`-th entry, a material
pass with the override at the number of material passes before it. -/
theorem resolvePasses_spec {overrides : List Json} {overrideIndex : Nat} {raw : List Json}
    {passes : List EffectPass}
    (h : (resolvePasses fromSlice lookup overrides overrideIndex raw).result = some passes) :
    passes.length = raw.length ∧ ∀ (j : Nat) (passObject : Json.Fields),
      raw[j]? = some (.object passObject) →
        (isCommand passObject = true → ∃ command, passes[j]? = some (.command command) ∧
          resolveCommandPass passObject = some command) ∧
        (isCommand passObject = false → ∃ material, passes[j]? = some (.material material) ∧
          (resolveMaterialPass fromSlice lookup passObject
            ((overrides[overrideIndex + materialsBefore raw j]?).map parsePassOverride)).result =
              some material) := by
  induction raw generalizing overrideIndex passes with
  | nil =>
    obtain rfl := Option.some.inj h
    exact ⟨rfl, fun j passObject hj => absurd hj (by simp)⟩
  | cons entry raw ih =>
    rw [resolvePasses] at h
    obtain ⟨object, hobject, hpasses⟩ := bind_result_iff.mp h
    obtain rfl := asObject_eq hobject
    by_cases hcommand : isCommand object = true
    · rw [if_pos hcommand] at hpasses
      obtain ⟨command, hresolved, hpasses⟩ := bind_result_iff.mp hpasses
      obtain ⟨rest, hrest, hpasses⟩ := bind_result_iff.mp hpasses
      obtain rfl := Option.some.inj hpasses
      obtain ⟨hlength, hspec⟩ := ih hrest
      refine ⟨congrArg (· + 1) hlength, fun j passObject hj => ?_⟩
      cases j with
      | zero =>
        obtain rfl := Json.object.inj (Option.some.inj hj)
        exact ⟨fun _ => ⟨command, rfl, hresolved⟩,
          fun hnot => absurd hcommand (by rw [hnot]; decide)⟩
      | succ j =>
        have hbefore : materialsBefore (.object object :: raw) (j + 1) = materialsBefore raw j := by
          simp [materialsBefore, isMaterial, asObject, hcommand]
        rw [hbefore]
        exact hspec j passObject hj
    · rw [if_neg hcommand] at hpasses
      obtain ⟨material, hresolved, hpasses⟩ := bind_result_iff.mp hpasses
      obtain ⟨rest, hrest, hpasses⟩ := bind_result_iff.mp hpasses
      obtain rfl := Option.some.inj hpasses
      obtain ⟨hlength, hspec⟩ := ih hrest
      refine ⟨congrArg (· + 1) hlength, fun j passObject hj => ?_⟩
      cases j with
      | zero =>
        obtain rfl := Json.object.inj (Option.some.inj hj)
        exact ⟨fun h => absurd h hcommand, fun _ => ⟨material, rfl, hresolved⟩⟩
      | succ j =>
        have hbefore : overrideIndex + materialsBefore (.object object :: raw) (j + 1) =
            overrideIndex + 1 + materialsBefore raw j := by
          simp [materialsBefore, isMaterial, asObject, hcommand]
          omega
        rw [hbefore]
        exact hspec j passObject hj

/-! ## Slots -/

/-- The first pass of the material that a pass names. -/
def materialOf (fromSlice : List UInt8 → Option Json) (lookup : String → Option (List UInt8))
    (passObject : Json.Fields) : Option Json.Fields :=
  (stringAt passObject "material").bind fun materialRef => (lookup materialRef).bind fun bytes =>
    (boundedJson fromSlice bytes).bind firstPass

theorem resolveMaterialPass_spec {passObject : Json.Fields} {override : Option PassOverride}
    {pass : EffectMaterialPass}
    (h : (resolveMaterialPass fromSlice lookup passObject override).result = some pass) :
    ∃ pass0, materialOf fromSlice lookup passObject = some pass0 ∧
      pass.combos = extend ((objectAt pass0 "combos").getD []) (override.elim [] (·.combos)) ∧
      pass.constantShaderValues = extend ((objectAt pass0 "constantshadervalues").getD [])
        (override.elim [] (·.constants)) ∧
      ∀ i < maxMaterialTextures, ∃ slot, pass.textureSlots[i]? = some slot ∧
        (resolveSlot lookup (passNames pass0 override passObject) i).result = some slot := by
  unfold resolveMaterialPass at h
  obtain ⟨materialRef, href, h⟩ := bind_result_iff.mp h
  obtain ⟨bytes, hbytes, h⟩ := bind_result_iff.mp h
  obtain ⟨pass0, hpass0, h⟩ := bind_result_iff.mp h
  obtain ⟨slots, hslots, h⟩ := bind_result_iff.mp h
  obtain rfl := Option.some.inj h
  refine ⟨pass0, ?_, rfl, rfl, fun i hi => ?_⟩
  · rw [materialOf, show stringAt passObject "material" = some materialRef from href,
      Option.bind_some, show lookup materialRef = some bytes from hbytes, Option.bind_some]
    exact hpass0
  · have hall := forEach_result_iff.mp hslots
    have hlength := hall.length_eq
    rw [List.length_range] at hlength
    have hslot := hall.get (i := i) (by simpa using hi) (hlength ▸ hi)
    refine ⟨slots[i], List.getElem?_eq_getElem _, ?_⟩
    simpa using hslot

/-- The names of a pass in the order that the module states, the highest source
first: binds, the user textures and the textures of the override, and those of
the material. -/
def statedNames (pass0 : Json.Fields) (override : Option PassOverride) (passObject : Json.Fields) :
    Names := fun i =>
  ((((parseIndexNameEntries (Json.get passObject "bind") i).or
    (override.bind (·.usertextures i))).or
    (override.bind (·.textures i))).or
    (parseIndexNameEntries (Json.get pass0 "usertextures") i)).or
    (baseNames pass0 i)

/-- Every slot shows what the highest source names; slot 0, named by nobody, the
previous buffer. -/
def SlotsRight (lookup : String → Option (List UInt8)) (pass0 : Json.Fields)
    (override : Option PassOverride) (passObject : Json.Fields)
    (slots : List (Option EffectTextureSlot)) : Prop :=
  ∀ i < maxMaterialTextures,
    match statedNames pass0 override passObject i with
    | some name => ∃ slot, slots[i]? = some (some slot) ∧
        (resolveTextureSlotName lookup name).result = some slot
    | none => slots[i]? = some (if i = 0 then some .previous else none)

/-- A slot that no bind names is named once by the override, or by the material
as its textures name it. -/
def Aligned (pass0 : Json.Fields) (override : Option PassOverride) (passObject : Json.Fields) :
    Prop :=
  ∀ i < maxMaterialTextures, parseIndexNameEntries (Json.get passObject "bind") i = none →
    match override.bind (·.textures i), override.bind (·.usertextures i) with
    | some a, some b => a = b
    | none, none => ∀ name, parseIndexNameEntries (Json.get pass0 "usertextures") i = some name →
        baseNames pass0 i = some name ∨ i = 0 ∧ baseNames pass0 0 = none ∧ name = previousInput
    | _, _ => True

theorem resolveTextureSlotName_injective {a b : String} {slot : EffectTextureSlot}
    (ha : (resolveTextureSlotName lookup a).result = some slot)
    (hb : (resolveTextureSlotName lookup b).result = some slot) : a = b := by
  have hcases : ∀ name, (resolveTextureSlotName lookup name).result = some slot →
      name = previousInput ∧ slot = .previous ∨ slot = .renderTarget name ∨
        ∃ bytes, slot = .texture name (textureAssetPath name) bytes := by
    intro name h
    unfold resolveTextureSlotName at h
    split at h
    next heq => exact .inl ⟨heq, (Option.some.inj h).symm⟩
    next =>
      split at h
      next => exact .inr (.inl (Option.some.inj h).symm)
      next =>
        obtain ⟨bytes, -, h⟩ := bind_result_iff.mp h
        obtain ⟨bytes, -, h⟩ := bind_result_iff.mp h
        exact .inr (.inr ⟨bytes, (Option.some.inj h).symm⟩)
  rcases hcases a ha with ⟨rfl, rfl⟩ | rfl | ⟨bytes, rfl⟩
  · rcases hcases b hb with ⟨rfl, -⟩ | h | ⟨bytes, h⟩
    · rfl
    · cases h
    · cases h
  · rcases hcases b hb with ⟨-, h⟩ | h | ⟨bytes, h⟩
    · cases h
    · exact (EffectTextureSlot.renderTarget.inj h)
    · cases h
  · rcases hcases b hb with ⟨-, h⟩ | h | ⟨bytes, h⟩
    · cases h
    · cases h
    · exact (EffectTextureSlot.texture.inj h).1

theorem passNames_eq (pass0 : Json.Fields) (override : Option PassOverride)
    (passObject : Json.Fields) (i : Nat) : passNames pass0 override passObject i =
      (((parseIndexNameEntries (Json.get passObject "bind") i).or
        (override.bind (·.textures i))).or
        (override.bind (·.usertextures i))).or
        (baseNames pass0 i) := by
  unfold passNames Names.insertAll
  cases override <;> simp [Option.or_assoc]

/-- What the code names a slot is what the module states, or stands for it. -/
theorem aligned_iff (pass0 : Json.Fields) (override : Option PassOverride)
    (passObject : Json.Fields) : Aligned pass0 override passObject ↔
      ∀ i < maxMaterialTextures,
        statedNames pass0 override passObject i = passNames pass0 override passObject i ∨
          i = 0 ∧ passNames pass0 override passObject i = none ∧
            statedNames pass0 override passObject i = some previousInput := by
  unfold Aligned
  refine forall₂_congr fun i hi => ?_
  rw [passNames_eq, statedNames]
  have hbase : (i = 0 ∧ baseNames pass0 0 = none) ↔ i = 0 ∧ baseNames pass0 i = none :=
    and_congr_right fun h => by rw [h]
  cases parseIndexNameEntries (Json.get passObject "bind") i with
  | some bound => simp
  | none =>
    cases override.bind (·.textures i) with
    | some a =>
      cases override.bind (·.usertextures i) with
      | some b => simp [eq_comm]
      | none => simp
    | none =>
      cases override.bind (·.usertextures i) with
      | some b => simp
      | none =>
        cases parseIndexNameEntries (Json.get pass0 "usertextures") i with
        | some name =>
          simp only [Option.none_or, Option.some_or, Option.some.injEq, forall_eq', ← and_assoc,
            hbase, true_implies]
          rw [eq_comm]
        | none => simp

theorem statedNames_ne_none {pass0 : Json.Fields} {override : Option PassOverride}
    {passObject : Json.Fields} {i : Nat} (h : passNames pass0 override passObject i ≠ none) :
    statedNames pass0 override passObject i ≠ none := by
  rw [passNames_eq] at h
  rw [statedNames]
  intro hnone
  simp only [ne_eq, Option.or_eq_none_iff] at hnone h
  obtain ⟨⟨⟨⟨hbind, husertextures⟩, htextures⟩, -⟩, hbase⟩ := hnone
  exact h ⟨⟨⟨hbind, htextures⟩, husertextures⟩, hbase⟩

theorem resolveTextureSlotName_previous :
    (resolveTextureSlotName lookup previousInput).result = some .previous := by
  rw [resolveTextureSlotName, if_pos rfl]
  rfl

theorem slotsRight_iff {passObject : Json.Fields} {override : Option PassOverride}
    {pass : EffectMaterialPass} {pass0 : Json.Fields}
    (h : ∀ i < maxMaterialTextures, ∃ slot, pass.textureSlots[i]? = some slot ∧
      (resolveSlot lookup (passNames pass0 override passObject) i).result = some slot) :
    SlotsRight lookup pass0 override passObject pass.textureSlots ↔
      Aligned pass0 override passObject := by
  rw [aligned_iff]
  unfold SlotsRight
  refine forall₂_congr fun i hi => ?_
  obtain ⟨slot, hslot, hresolved⟩ := h i hi
  rw [hslot]
  unfold resolveSlot at hresolved
  cases hnames : passNames pass0 override passObject i with
  | some name =>
    rw [hnames] at hresolved
    obtain ⟨shown, hshown, hresolved⟩ := bind_result_iff.mp hresolved
    obtain rfl := Option.some.inj hresolved
    cases hstated : statedNames pass0 override passObject i with
    | some stated =>
      simp only [Option.some.injEq, exists_eq_left', reduceCtorEq, false_and, and_false, or_false]
      refine ⟨fun h => resolveTextureSlotName_injective h hshown, fun h => ?_⟩
      rw [h]
      exact hshown
    | none =>
      have hsome : statedNames pass0 override passObject i ≠ none :=
        statedNames_ne_none (by rw [hnames]; exact Option.some_ne_none name)
      exact absurd hstated hsome
  | none =>
    rw [hnames] at hresolved
    obtain rfl := Option.some.inj hresolved
    cases hstated : statedNames pass0 override passObject i with
    | some stated =>
      by_cases hi0 : i = 0
      · simp only [hi0, if_true, Option.some.injEq, exists_eq_left', reduceCtorEq, true_and,
          false_or]
        constructor
        · intro h
          exact resolveTextureSlotName_injective h resolveTextureSlotName_previous
        · intro h
          rw [h]
          exact resolveTextureSlotName_previous
      · simp [hi0]
    | none => simp

/-! ## Effects -/

/-- The document of the effect that an entry names. -/
def effectRootOf (fromSlice : List UInt8 → Option Json) (lookup : String → Option (List UInt8))
    (effectObject : Json.Fields) : Option Json.Fields :=
  (stringAt effectObject "file").bind fun fileRef => (lookup fileRef).bind fun bytes =>
    (boundedJson fromSlice bytes).bind asObject

/-- The passes of an effect that are read. -/
def rawPassesOf (effectRoot : Json.Fields) : List Json :=
  (((Json.get effectRoot "passes").bind asArray).getD []).take maxPassesPerEffect

/-- The override of the pass at `j`: that at the number of material passes
before it. -/
def overrideOf (effectObject : Json.Fields) (raw : List Json) (j : Nat) : Option PassOverride :=
  ((overridesOf effectObject)[materialsBefore raw j]?).map parsePassOverride

/-- A property of the material passes of an effect, each with its place, the
material that it names, and its override. -/
def ForMaterials (fromSlice : List UInt8 → Option Json) (lookup : String → Option (List UInt8))
    (entry : Json)
    (P : Nat → Json.Fields → Option PassOverride → Json.Fields → Prop) : Prop :=
  ∀ (effectObject effectRoot : Json.Fields), entry = .object effectObject →
    effectRootOf fromSlice lookup effectObject = some effectRoot →
    ∀ (j : Nat) (passObject pass0 : Json.Fields),
      (rawPassesOf effectRoot)[j]? = some (.object passObject) → isCommand passObject = false →
      materialOf fromSlice lookup passObject = some pass0 →
      P j pass0 (overrideOf effectObject (rawPassesOf effectRoot) j) passObject

/-- The pass at `j` has the values of the material with those of the override
over them, and the slots that the names state. -/
def MaterialRight (lookup : String → Option (List UInt8)) (passes : List EffectPass) (j : Nat)
    (pass0 : Json.Fields) (override : Option PassOverride) (passObject : Json.Fields) : Prop :=
  ∃ pass, passes[j]? = some (.material pass) ∧
    pass.combos = extend ((objectAt pass0 "combos").getD []) (override.elim [] (·.combos)) ∧
    pass.constantShaderValues = extend ((objectAt pass0 "constantshadervalues").getD [])
      (override.elim [] (·.constants)) ∧
    SlotsRight lookup pass0 override passObject pass.textureSlots

/-- The caps hold, and the passes of the effects are right. -/
def EffectsRight (fromSlice : List UInt8 → Option Json) (positiveF32 : Json → Option F) (one : F)
    (lookup : String → Option (List UInt8)) (entries : List Json) : Prop :=
  let resolved := resolveObjectEffects fromSlice positiveF32 one lookup entries
  resolved.1.length ≤ maxEffectsPerObject ∧ resolved.2.length ≤ 4640 ∧
    ∀ entry ∈ entries.take maxEffectsPerObject, ∀ effect,
      (resolveEntry fromSlice positiveF32 one lookup entry).result = some effect →
      effect ∈ resolved.1 ∧ effect.effect.passes.length ≤ maxPassesPerEffect ∧
        ForMaterials fromSlice lookup entry (MaterialRight lookup effect.effect.passes)

theorem resolveEntry_spec {entry : Json} {effect : ObjectEffect F}
    (h : (resolveEntry fromSlice positiveF32 one lookup entry).result = some effect) :
    ∃ effectObject effectRoot, entry = .object effectObject ∧
      effectRootOf fromSlice lookup effectObject = some effectRoot ∧
      (resolvePasses fromSlice lookup (overridesOf effectObject) 0
        (rawPassesOf effectRoot)).result = some effect.effect.passes := by
  unfold resolveEntry at h
  obtain ⟨effectObject, hobject, h⟩ := bind_result_iff.mp h
  obtain ⟨fileRef, hfile, h⟩ := bind_result_iff.mp h
  obtain ⟨bytes, hbytes, h⟩ := bind_result_iff.mp h
  obtain ⟨effectRoot, hroot, h⟩ := bind_result_iff.mp h
  obtain ⟨spec, hspec, h⟩ := bind_result_iff.mp h
  obtain rfl := Option.some.inj h
  refine ⟨effectObject, effectRoot, asObject_eq hobject, ?_, ?_⟩
  · rw [effectRootOf, show stringAt effectObject "file" = some fileRef from hfile,
      Option.bind_some, show lookup fileRef = some bytes from hbytes, Option.bind_some]
    exact hroot
  · unfold parseEffectSpec at hspec
    obtain ⟨raw, hraw, hspec⟩ := bind_result_iff.mp hspec
    split at hspec
    · cases hspec
    · obtain ⟨passes, hpasses, hspec⟩ := bind_result_iff.mp hspec
      obtain rfl := Option.some.inj hspec
      rw [rawPassesOf, show (Json.get effectRoot "passes").bind asArray = some raw from hraw]
      exact hpasses

/-- **Effects.**  The passes are right exactly when their sources are aligned. -/
theorem effects_right_iff (fromSlice : List UInt8 → Option Json) (positiveF32 : Json → Option F)
    (one : F) (lookup : String → Option (List UInt8)) (entries : List Json) :
    EffectsRight fromSlice positiveF32 one lookup entries ↔
      ∀ entry ∈ entries.take maxEffectsPerObject,
        (resolveEntry fromSlice positiveF32 one lookup entry).result.isSome →
        ForMaterials fromSlice lookup entry fun _ => Aligned := by
  have hentry : ∀ (entry : Json) (effect : ObjectEffect F),
      (resolveEntry fromSlice positiveF32 one lookup entry).result = some effect →
      (effect.effect.passes.length ≤ maxPassesPerEffect ∧
          ForMaterials fromSlice lookup entry (MaterialRight lookup effect.effect.passes) ↔
        ForMaterials fromSlice lookup entry fun _ => Aligned) := by
    intro entry effect h
    obtain ⟨effectObject, effectRoot, rfl, hroot, hpasses⟩ := resolveEntry_spec h
    obtain ⟨hlength, hspec⟩ := resolvePasses_spec hpasses
    rw [and_iff_right (by rw [hlength]; exact List.length_take_le _ _)]
    unfold ForMaterials
    refine forall₂_congr fun object root => forall₂_congr fun hobject hroot' => ?_
    obtain rfl := Json.object.inj hobject
    obtain rfl := Option.some.inj (hroot.symm.trans hroot')
    refine forall₂_congr fun j passObject => forall_congr' fun pass0 =>
      forall₂_congr fun hraw hcommand => forall_congr' fun hmaterial => ?_
    obtain ⟨pass, hpass, hresolved⟩ := (hspec j passObject hraw).2 hcommand
    rw [Nat.zero_add] at hresolved
    obtain ⟨pass0', hpass0, hcombos, hconstants, hslots⟩ := resolveMaterialPass_spec hresolved
    obtain rfl := Option.some.inj (hmaterial.symm.trans hpass0)
    refine Iff.trans ⟨?_, ?_⟩ (slotsRight_iff hslots)
    · rintro ⟨shown, hshown, -, -, hright⟩
      obtain rfl := EffectPass.material.inj (Option.some.inj (hpass.symm.trans hshown))
      exact hright
    · intro hright
      exact ⟨pass, hpass, hcombos, hconstants, hright⟩
  have hcap : (resolveObjectEffects fromSlice positiveF32 one lookup entries).1.length ≤
      maxEffectsPerObject := by
    refine Nat.le_trans (List.length_filterMap_le _ _) ?_
    rw [List.length_map]
    exact List.length_take_le _ _
  constructor
  · rintro ⟨-, -, hright⟩ entry hmem hsome
    obtain ⟨effect, heffect⟩ := Option.isSome_iff_exists.mp hsome
    exact (hentry entry effect heffect).mp (hright entry hmem effect heffect).2
  · intro haligned
    refine ⟨hcap, length_references_le entries, fun entry hmem effect heffect => ⟨?_, ?_⟩⟩
    · exact List.mem_filterMap.mpr ⟨_, List.mem_map_of_mem hmem, heffect⟩
    · exact (hentry entry effect heffect).mpr
        (haligned entry hmem (Option.isSome_iff_exists.mpr ⟨effect, heffect⟩))

end Effects

/-! ## A pass with two names for a slot -/

def effectText : String := "\x7b\"passes\":[\x7b\"material\":\"m\"\x7d]\x7d"

def materialText : String := "\x7b\"passes\":[\x7b\x7d]\x7d"

def twoFiles (reference : String) : Option (List UInt8) :=
  if reference = "e" then some (ascii effectText)
  else if reference = "m" then some (ascii materialText)
  else none

def readTwoFiles (bytes : List UInt8) : Option Json :=
  if bytes = ascii effectText then
    some (.object [("passes", .array [.object [("material", .string "m")]])])
  else if bytes = ascii materialText then some (.object [("passes", .array [.object []])])
  else none

def twoNames : Json :=
  .object [("textures", .array [.null, .string "_rt_a"]),
    ("usertextures", .array [.null, .string "_rt_b"])]

def twoNamesEntry : Json := .object [("file", .string "e"), ("passes", .array [twoNames])]

/-- Slot 1 shows the texture, not the user texture. -/
theorem user_texture_overwritten :
    ¬ EffectsRight readTwoFiles (fun _ => none) () twoFiles [twoNamesEntry] := by
  rintro ⟨-, -, hright⟩
  obtain ⟨effect, heffect, hslot⟩ : ∃ effect,
      (resolveEntry readTwoFiles (fun _ => none) () twoFiles twoNamesEntry).result = some effect ∧
        ∀ pass, effect.effect.passes[0]? = some (.material pass) →
          pass.textureSlots[1]? = some (some (.renderTarget "_rt_a")) :=
    ⟨_, rfl, fun pass hpass => by
      obtain rfl := EffectPass.material.inj (Option.some.inj hpass)
      rfl⟩
  obtain ⟨pass, hpass, -, -, hslots⟩ := (hright twoNamesEntry (by simp [maxEffectsPerObject])
    effect heffect).2.2 _ _ rfl rfl 0 [("material", .string "m")] [] rfl rfl rfl
  obtain ⟨slot, hshown, hnamed⟩ : ∃ slot, pass.textureSlots[1]? = some (some slot) ∧
      (resolveTextureSlotName twoFiles "_rt_b").result = some slot := hslots 1 (by decide)
  obtain rfl : slot = .renderTarget "_rt_b" := (Option.some.inj hnamed).symm
  rw [hslot pass hpass] at hshown
  exact absurd hshown (by decide)

end Kwe.Scene

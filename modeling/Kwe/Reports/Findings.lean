import Kwe.Foundation.Smallest
import Kwe.Reports.Inspector
import Kwe.Scene.Vfs

/-!
What the walk over a scene finds, and the inventory of it.

* `inventorySceneJson_eq`: the walk notes its findings one after another;
* `tally_foldl`: what a builder holds of the findings it has noted;
* `inventory_exact_iff`: when the objects are classified as the renderer
  classifies them;
* `inventory_classified`: how they are classified.
-/

namespace Kwe.Reports

open Foundation Foundation.Smallest

/-! ## The classification of the renderer -/

inductive SceneObjectKind
  | model | image | texvImage | video | particle | particleFile | text | texturelessImage | other
  deriving DecidableEq, Repr

def scenePropertyValue (value : Json) : Json :=
  match value with
  | .object fields => (Json.get fields "value").getD value
  | other => other

def endsIn (reference : String) (ending : List Char) : Bool :=
  ending.isSuffixOf (Scene.toAsciiLowercase reference.toList)

def classifySceneObject (object : Json.Fields) : SceneObjectKind :=
  let image := (Json.get object "image").map scenePropertyValue
  match image.bind Json.asStr with
  | some reference =>
    if endsIn reference ".json".toList then .model
    else if endsIn reference ".tex".toList then .texvImage
    else .image
  | none =>
    if (Json.get object "video").isSome then .video
    else
      match (Json.get object "particle").map scenePropertyValue with
      | some (.object fields) =>
        if ((((Json.get fields "texture").or (Json.get fields "material")).map
            scenePropertyValue).bind Json.asStr).isSome then .particle
        else .particleFile
      | some _ => .particleFile
      | none =>
        if (Json.get object "text").isSome then .text
        else if image.isSome then .texturelessImage
        else .other

/-- The capability of a family of objects. -/
def SceneObjectKind.capability : SceneObjectKind → Option String
  | .model | .image | .texvImage | .texturelessImage => some "scene.layer.image"
  | .video => some "scene.layer.video"
  | .particle | .particleFile => some "scene.particle"
  | .text => some "scene.layer.text"
  | .other => none

/-! ## Findings -/

/-- What an object is noted under, by a classification of the objects that are
neither sounds nor lights. -/
abbrev Primary := Json.Fields → Option String

/-- By the keys, in the order of the walk. -/
def primaryByKeys : Primary := fun object =>
  let has (key : String) : Bool := (Json.get object key).isSome
  if has "image" || has "model" then some "scene.layer.image"
  else if has "video" then some "scene.layer.video"
  else if has "particle" then some "scene.particle"
  else if has "text" then some "scene.layer.text"
  else if has "sound" then some "scene.layer.sound"
  else if has "light" then some "scene.lighting"
  else none

/-- By the classification of the renderer; it knows no sounds and lights. -/
def primaryByKind : Primary := fun object =>
  let has (key : String) : Bool := (Json.get object key).isSome
  (classifySceneObject object).capability.or
    (if has "sound" then some "scene.layer.sound"
    else if has "light" then some "scene.lighting"
    else none)

def hasEffects (object : Json.Fields) : Bool :=
  match Json.get object "effects" with
  | some (.array effects) => !effects.isEmpty
  | _ => false

def isActive (object : Json.Fields) : Bool :=
  match Json.get object "visible" with
  | some (.bool visible) => visible
  | _ => true

def oddVisible (object : Json.Fields) : Bool :=
  match Json.get object "visible" with
  | none | some (.bool _) | some (.object _) => false
  | some _ => true

/-- The entries that are walked, with their indices. -/
def walked (caps : InventoryCaps) : Json → List (Json × Nat)
  | .object root =>
    match Json.get root "objects" with
    | some (.array objects) => (objects.take caps.maxObjectsWalked).zipIdx
    | _ => []
  | _ => []

/-- There are more entries than are walked. -/
def stopped (caps : InventoryCaps) : Json → Bool
  | .object root =>
    match Json.get root "objects" with
    | some (.array objects) => decide (caps.maxObjectsWalked < objects.length)
    | _ => false
  | _ => false

def asObjectEntry : Json × Nat → Option (Json.Fields × Nat)
  | (.object object, index) => some (object, index)
  | _ => none

/-- The objects among the entries. -/
def walkedObjects (caps : InventoryCaps) (root : Json) : List (Json.Fields × Nat) :=
  (walked caps root).filterMap asObjectEntry

def entryKeyPaths : Json × Nat → List String
  | (.object object, index) =>
    ((object.map (·.1)).filter (!objectKeys.contains ·)).map fun key => s!"objects[{index}].{key}"
  | _ => []

def entryTypePaths : Json × Nat → List String
  | (.object object, index) => if oddVisible object then [s!"objects[{index}].visible"] else []
  | (_, index) => [s!"objects[{index}]"]

def rootKeyPaths : Json → List String
  | .object root => (root.map (·.1)).filter (!rootKeys.contains ·)
  | _ => []

def rootTypePaths : Json → List String
  | .object root =>
    match Json.get root "objects" with
    | none | some (.array _) => []
    | some _ => ["objects"]
  | _ => ["$"]

/-- The keys that are not known. -/
def unknownKeyPaths (caps : InventoryCaps) (root : Json) : List String :=
  rootKeyPaths root ++ (walked caps root).flatMap entryKeyPaths

/-- The values that are not of the expected type. -/
def unknownTypePaths (caps : InventoryCaps) (root : Json) : List String :=
  rootTypePaths root ++ (walked caps root).flatMap entryTypePaths

/-- The ids of the objects with a capability. -/
def idsOf (primary : Primary) (caps : InventoryCaps) (root : Json) (capability : String) :
    List String :=
  ((walkedObjects caps root).filter fun o =>
    primary o.1 = some capability || (capability = "scene.effects" && hasEffects o.1)).map
    fun o => logicalId o.1 o.2 caps.maxSamplePathBytes

/-- A bounded list of the smallest of some texts. -/
structure Sampled (max : Nat) (early : Bool) (texts list : List String) (flag : Bool) : Prop where
  kept : list = smallest max texts
  cut : flag = true ↔ list.length < texts.length ∨ early = true

/-- **An exact inventory.**  The numbers are the totals over what is walked, the
lists hold the smallest paths and ids in order, and each list says whether it is
cut. -/
structure Exact (primary : Primary) (caps : InventoryCaps) (root : Json) (inventory : Inventory) :
    Prop where
  keys : inventory.unknown.keys = .ofNat (unknownKeyPaths caps root).length
  types : inventory.unknown.types = .ofNat (unknownTypePaths caps root).length
  objects : inventory.unknown.objects =
    .ofNat ((walkedObjects caps root).countP fun o => (primary o.1).isNone)
  paths : Sampled caps.maxSamples (stopped caps root)
    ((unknownKeyPaths caps root ++ unknownTypePaths caps root).map
      (truncateBytes · caps.maxSamplePathBytes))
    inventory.unknown.samples inventory.unknown.truncated
  absent : ∀ capability, (∀ d ∈ inventory.detected, d.capability ≠ capability) ↔
    idsOf primary caps root capability = []
  counts : ∀ d ∈ inventory.detected,
    d.count = .ofNat (idsOf primary caps root d.capability).length
  ids : ∀ d ∈ inventory.detected, Sampled caps.maxSamples (stopped caps root)
    (idsOf primary caps root d.capability) d.objects d.truncated
  once : (inventory.detected.map (·.capability)).Nodup

/-! ## The walk as a list of findings -/

inductive Finding
  | key (path : String)
  | type (path : String)
  | object
  | capability (capability id : String) (active : Bool)

def Builder.add (b : Builder) : Finding → Builder
  | .key path => b.unknownKey path
  | .type path => b.unknownType path
  | .object => { b with unknownObjects := b.unknownObjects + 1 }
  | .capability capability id active => b.record capability id active

def objectFindings (primary : Primary) (maxBytes : Nat) (object : Json.Fields) (index : Nat) :
    List Finding :=
  let id := logicalId object index maxBytes
  (match primary object with
    | some capability => .capability capability id (isActive object)
    | none => .object) ::
  if hasEffects object then [.capability "scene.effects" id (isActive object)] else []

def capabilityFindings (primary : Primary) (maxBytes : Nat) : Json × Nat → List Finding
  | (.object object, index) => objectFindings primary maxBytes object index
  | _ => []

def entryFindings (primary : Primary) (maxBytes : Nat) (e : Json × Nat) : List Finding :=
  (entryKeyPaths e).map .key ++ (entryTypePaths e).map .type ++
    capabilityFindings primary maxBytes e

def findings (primary : Primary) (caps : InventoryCaps) (root : Json) : List Finding :=
  (rootKeyPaths root).map .key ++ (rootTypePaths root).map .type ++
    (walked caps root).flatMap (entryFindings primary caps.maxSamplePathBytes)

theorem add_caps (b : Builder) (f : Finding) : (b.add f).caps = b.caps := by
  cases f <;> rfl

theorem foldl_add_caps (b : Builder) (fs : List Finding) :
    (fs.foldl Builder.add b).caps = b.caps := by
  induction fs generalizing b with
  | nil => rfl
  | cons f fs ih => exact (ih _).trans (add_caps b f)

/-- The unknown keys of a list, one after another. -/
theorem foldl_unknownKey (known : List String) (path : String → String) (keys : List String)
    (b : Builder) :
    keys.foldl (fun (b : Builder) key =>
        if known.contains key then b else b.unknownKey (path key)) b =
      (((keys.filter (!known.contains ·)).map path).map Finding.key).foldl Builder.add b := by
  induction keys generalizing b with
  | nil => rfl
  | cons key keys ih =>
    rw [List.foldl_cons, ih, List.filter_cons]
    cases known.contains key <;> rfl

/-- The end of the walk over an object, once its visibility is read. -/
theorem walkObject_capabilities (b : Builder) (object : Json.Fields) (index : Nat) :
    (let id := logicalId object index b.caps.maxSamplePathBytes
      let noted := match primaryByKeys object with
        | some capability => b.record capability id (isActive object)
        | none => { b with unknownObjects := b.unknownObjects + 1 }
      if hasEffects object then noted.record "scene.effects" id (isActive object) else noted) =
      (objectFindings primaryByKeys b.caps.maxSamplePathBytes object index).foldl
        Builder.add b := by
  unfold objectFindings
  cases primaryByKeys object <;> cases hasEffects object <;> rfl

theorem walkObject_eq (b : Builder) (object : Json.Fields) (index : Nat) :
    b.walkObject object index =
      (entryFindings primaryByKeys b.caps.maxSamplePathBytes (.object object, index)).foldl
        Builder.add b := by
  have hcaps := foldl_add_caps b ((entryKeyPaths (.object object, index)).map .key)
  have hkeys : (object.map (·.1)).foldl (fun (b : Builder) key =>
      if objectKeys.contains key then b else b.unknownKey s!"objects[{index}].{key}") b =
      ((entryKeyPaths (.object object, index)).map .key).foldl Builder.add b :=
    foldl_unknownKey objectKeys _ _ b
  rw [entryFindings, List.foldl_append, List.foldl_append, Builder.walkObject]
  dsimp only
  rw [hkeys, ← hcaps]
  generalize ((entryKeyPaths (.object object, index)).map Finding.key).foldl Builder.add b = keyed
  have hend := fun b => walkObject_capabilities b object index
  cases hvisible : Json.get object "visible" with
  | none =>
    rw [show isActive object = true by simp [isActive, hvisible]] at hend
    rw [show entryTypePaths (.object object, index) = [] by
      simp [entryTypePaths, oddVisible, hvisible]]
    exact hend keyed
  | some value =>
    cases value with
    | bool visible =>
      rw [show isActive object = visible by simp [isActive, hvisible]] at hend
      rw [show entryTypePaths (.object object, index) = [] by
        simp [entryTypePaths, oddVisible, hvisible]]
      exact hend keyed
    | object fields =>
      rw [show isActive object = true by simp [isActive, hvisible]] at hend
      rw [show entryTypePaths (.object object, index) = [] by
        simp [entryTypePaths, oddVisible, hvisible]]
      exact hend keyed
    | _ =>
      rw [show isActive object = true by simp [isActive, hvisible]] at hend
      rw [show entryTypePaths (.object object, index) = [s!"objects[{index}].visible"] by
        simp [entryTypePaths, oddVisible, hvisible]]
      exact hend (keyed.unknownType s!"objects[{index}].visible")

theorem walkObjects_eq (entries : List Json) (index : Nat) (b : Builder) :
    walkObjects (fun _ => false) index entries b =
      let noted := (((entries.take (b.caps.maxObjectsWalked - index)).zipIdx index).flatMap
        (entryFindings primaryByKeys b.caps.maxSamplePathBytes)).foldl Builder.add b
      if b.caps.maxObjectsWalked - index < entries.length then
        { noted with limitsHit := noted.limitsHit ++ ["objects-cap"] }.truncateAll
      else noted := by
  induction entries generalizing index b with
  | nil => simp [walkObjects]
  | cons entry entries ih =>
    by_cases hcap : b.caps.maxObjectsWalked ≤ index
    · rw [Nat.sub_eq_zero_of_le hcap]
      simp [walkObjects, hcap]
    · obtain ⟨room, hroom⟩ : ∃ room, b.caps.maxObjectsWalked - index = room + 1 :=
        ⟨b.caps.maxObjectsWalked - index - 1, by omega⟩
      have hentry : walkObjects (fun _ => false) index (entry :: entries) b =
          walkObjects (fun _ => false) (index + 1) entries
            ((entryFindings primaryByKeys b.caps.maxSamplePathBytes (entry, index)).foldl
              Builder.add b) := by
        rw [walkObjects.eq_def]
        dsimp only
        rw [if_neg hcap, if_neg (by simp)]
        cases entry with
        | object object => exact congrArg _ (walkObject_eq b object index)
        | null => rfl
        | bool => rfl
        | nat => rfl
        | neg => rfl
        | float => rfl
        | string => rfl
        | array => rfl
      have hnext : b.caps.maxObjectsWalked - (index + 1) = room := by omega
      rw [hentry, ih, foldl_add_caps, hroom, hnext, List.take_succ_cons, List.zipIdx_cons,
        List.flatMap_cons, List.foldl_append, List.length_cons]
      simp only [Nat.add_lt_add_iff_right]

/-- **The walk.**  Without an expired deadline it notes its findings one after
another, and marks all lists if it stops early. -/
theorem inventorySceneJson_eq (caps : InventoryCaps) (root : Json) :
    inventorySceneJson (some root) caps (fun _ => false) =
      let noted := (findings primaryByKeys caps root).foldl Builder.add (.new caps)
      some (if stopped caps root then
        { noted with limitsHit := noted.limitsHit ++ ["objects-cap"] }.truncateAll.finish
      else noted.finish) := by
  cases root with
  | object object =>
    have hkeys : (object.map (·.1)).foldl (fun (b : Builder) key =>
        if rootKeys.contains key then b else b.unknownKey key) (Builder.new caps) =
        ((rootKeyPaths (.object object)).map .key).foldl Builder.add (.new caps) := by
      rw [foldl_unknownKey rootKeys (fun key => key), List.map_id']
      rfl
    have hcaps := foldl_add_caps (.new caps) ((rootKeyPaths (.object object)).map .key)
    rw [inventorySceneJson, Option.map_some]
    dsimp only
    rw [hkeys, findings, List.foldl_append, List.foldl_append]
    generalize ((rootKeyPaths (.object object)).map Finding.key).foldl Builder.add (.new caps) = b
      at hcaps
    cases hobjects : Json.get object "objects" with
    | none =>
      rw [show rootTypePaths (.object object) = [] by simp [rootTypePaths, hobjects],
        show walked caps (.object object) = [] by simp [walked, hobjects],
        show stopped caps (.object object) = false by simp [stopped, hobjects]]
      rfl
    | some value =>
      cases value with
      | array objects =>
        have hwalk := walkObjects_eq objects 0 b
        rw [hcaps, show (Builder.new caps).caps = caps from rfl, Nat.sub_zero] at hwalk
        rw [show rootTypePaths (.object object) = [] by simp [rootTypePaths, hobjects],
          show walked caps (.object object) = (objects.take caps.maxObjectsWalked).zipIdx by
            simp [walked, hobjects],
          show stopped caps (.object object) = decide (caps.maxObjectsWalked < objects.length) by
            simp [stopped, hobjects]]
        dsimp only
        rw [hwalk]
        by_cases hlong : caps.maxObjectsWalked < objects.length
        · rw [if_pos hlong, if_pos (decide_eq_true hlong)]
          rfl
        · rw [if_neg hlong, if_neg (by simpa using hlong)]
          rfl
      | _ =>
        rw [show rootTypePaths (.object object) = ["objects"] by simp [rootTypePaths, hobjects],
          show walked caps (.object object) = [] by simp [walked, hobjects],
          show stopped caps (.object object) = false by simp [stopped, hobjects]]
        rfl
  | _ => rfl

/-! ## The tally -/

def Finding.keyPath : Finding → Option String
  | .key path => some path
  | _ => none

def Finding.typePath : Finding → Option String
  | .type path => some path
  | _ => none

def Finding.path : Finding → Option String
  | .key path | .type path => some path
  | _ => none

def Finding.isObject : Finding → Bool
  | .object => true
  | _ => false

def Finding.idFor (wanted : String) : Finding → Option String
  | .capability found id _active => if found = wanted then some id else none
  | _ => none

/-- What is kept of a list of texts. -/
structure Kept (max : Nat) (texts list : List String) (flag : Bool) : Prop where
  list : list = smallest max texts
  flag : flag = decide (max < texts.length)

theorem insertSorted_eq (x : String) (kept : List String) :
    insertSorted x kept = kept.orderedInsert (· ≤ ·) x :=
  takeWhile_append_cons x kept

/-- One more text. -/
theorem Kept.keepSmallest {max : Nat} {texts list : List String} {flag : Bool}
    (h : Kept max texts list flag) (x : String) :
    Kept max (texts ++ [x]) (keepSmallest max x list).1 (flag || (keepSmallest max x list).2) := by
  obtain ⟨rfl, rfl⟩ := h
  have hperm := smallest_perm (List.perm_append_singleton x texts) max
  have hlength := length_smallest max texts
  unfold Reports.keepSmallest
  split
  next hroom =>
    exact ⟨by rw [hperm, smallest_of_room hroom, insertSorted_eq], by
      simp only [List.length_append, List.length_singleton, Bool.or_false, decide_eq_decide]
      omega⟩
  next hfull =>
    have hflag : (decide (max < texts.length) || true) = decide (max < (texts ++ [x]).length) := by
      rw [Bool.or_true, List.length_append, List.length_singleton, eq_comm, decide_eq_true_eq]
      omega
    split
    next hlast =>
      exact ⟨by rw [hperm, smallest_of_full hfull, insertSorted_eq], hflag⟩
    next hlast =>
      refine ⟨?_, hflag⟩
      rw [hperm, smallest_of_le hfull]
      intro y hy
      rw [Option.mem_def] at hy
      rw [hy, Option.any_some, decide_eq_true_eq] at hlast
      exact not_lt.mp hlast

/-- The entries of a map of capabilities. -/
def Detects (max : Nat) (ids : String → List String) (detected : List DetectedCapability) : Prop :=
  detected.Pairwise (·.capability < ·.capability) ∧
    (∀ d ∈ detected, ids d.capability ≠ [] ∧ d.count = .ofNat (ids d.capability).length ∧
      Kept max (ids d.capability) d.objects d.truncated) ∧
    ∀ capability, ids capability ≠ [] → ∃ d ∈ detected, d.capability = capability

/-- An entry of the capability, or one that is new, is noted; the others stay. -/
theorem mem_noteDetected {max : Nat} {capability id : String} {detected : List DetectedCapability}
    (hsorted : detected.Pairwise (·.capability < ·.capability)) {d : DetectedCapability} :
    d ∈ noteDetected max capability id detected ↔
      (d ∈ detected ∧ d.capability ≠ capability) ∨
      (∃ old ∈ detected, old.capability = capability ∧ d = old.note max id) ∨
      (∀ old ∈ detected, old.capability ≠ capability) ∧
        d = DetectedCapability.note max id ⟨capability, 0, [], false⟩ := by
  induction detected with
  | nil => simp [noteDetected]
  | cons e detected ih =>
    obtain ⟨hhead, htail⟩ := List.pairwise_cons.mp hsorted
    rw [noteDetected]
    split
    next heq =>
      have hothers : ∀ f ∈ detected, f.capability ≠ capability := fun f hf hf' =>
        absurd (hhead f hf) (by rw [heq, hf']; exact lt_irrefl _)
      simp only [List.mem_cons]
      constructor
      · rintro (rfl | hd)
        · exact .inr (.inl ⟨e, .inl rfl, heq, rfl⟩)
        · exact .inl ⟨.inr hd, hothers d hd⟩
      · rintro (⟨rfl | hd, hother⟩ | ⟨old, rfl | hold, hcap, rfl⟩ | ⟨hnone, rfl⟩)
        · exact absurd heq hother
        · exact .inr hd
        · exact .inl rfl
        · exact absurd hcap (hothers old hold)
        · exact absurd heq (hnone e (.inl rfl))
    next hne =>
      split
      next hlt =>
        have hothers : ∀ f ∈ e :: detected, f.capability ≠ capability := by
          intro f hf hf'
          rcases List.mem_cons.mp hf with rfl | hf
          · exact hne hf'
          · exact absurd (hlt.trans (hhead f hf)) (by rw [hf']; exact lt_irrefl _)
        rw [List.mem_cons]
        constructor
        · rintro (rfl | hd)
          · exact .inr (.inr ⟨hothers, rfl⟩)
          · exact .inl ⟨hd, hothers d hd⟩
        · rintro (⟨hd, -⟩ | ⟨old, hold, hcap, -⟩ | ⟨-, rfl⟩)
          · exact .inr hd
          · exact absurd hcap (hothers old hold)
          · exact .inl rfl
      next hge =>
        rw [List.mem_cons, ih htail]
        simp only [List.mem_cons]
        constructor
        · rintro (rfl | ⟨hd, hother⟩ | ⟨old, hold, hcap, rfl⟩ | ⟨hnone, rfl⟩)
          · exact .inl ⟨.inl rfl, hne⟩
          · exact .inl ⟨.inr hd, hother⟩
          · exact .inr (.inl ⟨old, .inr hold, hcap, rfl⟩)
          · refine .inr (.inr ⟨?_, rfl⟩)
            rintro old (rfl | hold)
            · exact hne
            · exact hnone old hold
        · rintro (⟨rfl | hd, hother⟩ | ⟨old, rfl | hold, hcap, rfl⟩ | ⟨hnone, rfl⟩)
          · exact .inl rfl
          · exact .inr (.inl ⟨hd, hother⟩)
          · exact absurd hcap hne
          · exact .inr (.inr (.inl ⟨old, hold, hcap, rfl⟩))
          · exact .inr (.inr (.inr ⟨fun old hold => hnone old (.inr hold), rfl⟩))

theorem note_capability (max : Nat) (id : String) (d : DetectedCapability) :
    (d.note max id).capability = d.capability := rfl

theorem noteDetected_sorted {max : Nat} {capability id : String}
    {detected : List DetectedCapability}
    (hsorted : detected.Pairwise (·.capability < ·.capability)) :
    (noteDetected max capability id detected).Pairwise (·.capability < ·.capability) := by
  induction detected with
  | nil => exact List.pairwise_singleton _ _
  | cons e detected ih =>
    obtain ⟨hhead, htail⟩ := List.pairwise_cons.mp hsorted
    rw [noteDetected]
    split
    next heq => exact List.pairwise_cons.mpr ⟨hhead, htail⟩
    next hne =>
      split
      next hlt =>
        refine List.pairwise_cons.mpr ⟨fun f hf => ?_, hsorted⟩
        rcases List.mem_cons.mp hf with rfl | hf
        · exact hlt
        · exact hlt.trans (hhead f hf)
      next hge =>
        have hgt : e.capability < capability := lt_of_le_of_ne (not_lt.mp hge) hne
        refine List.pairwise_cons.mpr ⟨fun f hf => ?_, ih htail⟩
        rcases (mem_noteDetected htail).mp hf with ⟨hf, -⟩ | ⟨old, hold, -, rfl⟩ | ⟨-, rfl⟩
        · exact hhead f hf
        · exact hhead old hold
        · exact hgt

/-- One more object with a capability. -/
theorem Detects.noteDetected {max : Nat} {ids : String → List String}
    {detected : List DetectedCapability} (h : Detects max ids detected) (capability id : String) :
    Detects max (fun c => ids c ++ if capability = c then [id] else [])
      (noteDetected max capability id detected) := by
  obtain ⟨hsorted, heach, hall⟩ := h
  refine ⟨noteDetected_sorted hsorted, fun d hd => ?_, fun c hc => ?_⟩
  · dsimp only
    rcases (mem_noteDetected hsorted).mp hd with ⟨hd, hother⟩ | ⟨old, hold, rfl, rfl⟩ | ⟨hnone, rfl⟩
    · rw [if_neg (Ne.symm hother), List.append_nil]
      exact heach d hd
    · obtain ⟨-, hcount, hkept⟩ := heach old hold
      rw [note_capability, if_pos rfl]
      refine ⟨by simp, ?_, hkept.keepSmallest id⟩
      rw [List.length_append, List.length_singleton, UInt64.ofNat_add, ← hcount]
      rfl
    · have hempty : ids capability = [] := by
        by_contra hsome
        obtain ⟨old, hold, hcap⟩ := hall capability hsome
        exact hnone old hold hcap
      rw [note_capability, if_pos rfl, hempty]
      have hnew : Kept max ([] : List String) [] false := ⟨by simp [smallest], by simp⟩
      exact ⟨by simp, rfl, hnew.keepSmallest id⟩
  · by_cases hcap : c = capability
    · subst hcap
      by_cases hold : ∃ old ∈ detected, old.capability = c
      · obtain ⟨old, hold, rfl⟩ := hold
        exact ⟨_, (mem_noteDetected hsorted).mpr (.inr (.inl ⟨old, hold, rfl, rfl⟩)), rfl⟩
      · push Not at hold
        exact ⟨_, (mem_noteDetected hsorted).mpr (.inr (.inr ⟨hold, rfl⟩)), rfl⟩
    · dsimp only at hc
      rw [if_neg (Ne.symm hcap), List.append_nil] at hc
      obtain ⟨d, hd, rfl⟩ := hall c hc
      exact ⟨d, (mem_noteDetected hsorted).mpr (.inl ⟨hd, hcap⟩), rfl⟩

/-- What a builder holds of its findings. -/
structure Tally (caps : InventoryCaps) (fs : List Finding) (b : Builder) : Prop where
  sameCaps : b.caps = caps
  keys : b.unknownKeys = .ofNat (fs.filterMap Finding.keyPath).length
  types : b.unknownTypes = .ofNat (fs.filterMap Finding.typePath).length
  objects : b.unknownObjects = .ofNat (fs.countP Finding.isObject)
  paths : Kept caps.maxSamples
    ((fs.filterMap Finding.path).map (truncateBytes · caps.maxSamplePathBytes))
    b.unknownSamples b.unknownTruncated
  detected : Detects caps.maxSamples (fun c => fs.filterMap (Finding.idFor c)) b.detected

theorem tally_new (caps : InventoryCaps) : Tally caps [] (.new caps) where
  sameCaps := rfl
  keys := rfl
  types := rfl
  objects := rfl
  paths := ⟨by simp [smallest, Builder.new], by simp [Builder.new]⟩
  detected := ⟨.nil, fun _ hd => absurd hd List.not_mem_nil, fun _ hc => absurd rfl hc⟩

theorem filterMap_concat (g : Finding → Option String) (fs : List Finding) (f : Finding) :
    (fs ++ [f]).filterMap g = fs.filterMap g ++ (g f).toList := by
  rw [List.filterMap_append, List.filterMap_cons]
  cases g f <;> rfl

/-- **One finding.** -/
theorem Tally.add {caps : InventoryCaps} {fs : List Finding} {b : Builder} (h : Tally caps fs b)
    (f : Finding) : Tally caps (fs ++ [f]) (b.add f) := by
  have hcaps := h.sameCaps
  subst hcaps
  have hskip : ∀ g : Finding → Option String, g f = none →
      (fs ++ [f]).filterMap g = fs.filterMap g := by
    intro g hg
    rw [filterMap_concat, hg, Option.toList_none, List.append_nil]
  have hpaths := fun path =>
    h.paths.keepSmallest (truncateBytes path b.caps.maxSamplePathBytes)
  cases f with
  | key path =>
    refine ⟨rfl, ?_, ?_, ?_, ?_, ?_⟩
    · rw [filterMap_concat, List.length_append, UInt64.ofNat_add, ← h.keys]
      rfl
    · rw [hskip _ rfl]
      exact h.types
    · rw [List.countP_append]
      exact h.objects
    · rw [filterMap_concat, List.map_append]
      exact hpaths path
    · simp only [hskip (Finding.idFor _) rfl]
      exact h.detected
  | type path =>
    refine ⟨rfl, ?_, ?_, ?_, ?_, ?_⟩
    · rw [hskip _ rfl]
      exact h.keys
    · rw [filterMap_concat, List.length_append, UInt64.ofNat_add, ← h.types]
      rfl
    · rw [List.countP_append]
      exact h.objects
    · rw [filterMap_concat, List.map_append]
      exact hpaths path
    · simp only [hskip (Finding.idFor _) rfl]
      exact h.detected
  | object =>
    refine ⟨rfl, ?_, ?_, ?_, ?_, ?_⟩
    · rw [hskip _ rfl]
      exact h.keys
    · rw [hskip _ rfl]
      exact h.types
    · rw [List.countP_append, UInt64.ofNat_add, ← h.objects]
      rfl
    · rw [hskip _ rfl]
      exact h.paths
    · simp only [hskip (Finding.idFor _) rfl]
      exact h.detected
  | capability capability id active =>
    refine ⟨rfl, ?_, ?_, ?_, ?_, ?_⟩
    · rw [hskip _ rfl]
      exact h.keys
    · rw [hskip _ rfl]
      exact h.types
    · rw [List.countP_append]
      exact h.objects
    · rw [hskip _ rfl]
      exact h.paths
    · have hids : (fun c => (fs ++ [Finding.capability capability id active]).filterMap
          (Finding.idFor c)) =
          fun c => fs.filterMap (Finding.idFor c) ++ if capability = c then [id] else [] := by
        funext c
        rw [filterMap_concat, Finding.idFor]
        split <;> rfl
      rw [hids]
      exact h.detected.noteDetected capability id

theorem tally_foldl {caps : InventoryCaps} {done : List Finding} {b : Builder}
    (h : Tally caps done b) (fs : List Finding) :
    Tally caps (done ++ fs) (fs.foldl Builder.add b) := by
  induction fs generalizing done b with
  | nil => simpa using h
  | cons f fs ih => simpa using ih (h.add f)

/-! ## The findings of a scene -/

section Projections

variable (primary : Primary) (caps : InventoryCaps) (root : Json)

theorem entryFindings_filterMap (g : Finding → Option String) (e : Json × Nat) :
    (entryFindings primary caps.maxSamplePathBytes e).filterMap g =
      (entryKeyPaths e).filterMap (fun path => g (.key path)) ++
        (entryTypePaths e).filterMap (fun path => g (.type path)) ++
        (capabilityFindings primary caps.maxSamplePathBytes e).filterMap g := by
  rw [entryFindings, List.filterMap_append, List.filterMap_append, List.filterMap_map,
    List.filterMap_map]
  rfl

/-- What the findings of the entries give, entry by entry. -/
theorem findings_filterMap (g : Finding → Option String) :
    (findings primary caps root).filterMap g =
      (rootKeyPaths root).filterMap (fun path => g (.key path)) ++
        (rootTypePaths root).filterMap (fun path => g (.type path)) ++
        (walked caps root).flatMap fun e =>
          (entryKeyPaths e).filterMap (fun path => g (.key path)) ++
            (entryTypePaths e).filterMap (fun path => g (.type path)) ++
            (capabilityFindings primary caps.maxSamplePathBytes e).filterMap g := by
  simp only [findings, List.filterMap_append, List.filterMap_map, List.filterMap_flatMap,
    entryFindings_filterMap]
  rfl

theorem capabilityFindings_none (g : Finding → Option String)
    (hobject : g .object = none) (hcap : ∀ c id active, g (.capability c id active) = none)
    (e : Json × Nat) :
    (capabilityFindings primary caps.maxSamplePathBytes e).filterMap g = [] := by
  rw [List.filterMap_eq_nil_iff]
  intro f hf
  unfold capabilityFindings objectFindings at hf
  split at hf
  next object index =>
    rcases List.mem_cons.mp hf with rfl | hf
    · cases primary object with
      | none => exact hobject
      | some c => exact hcap _ _ _
    · split at hf
      · obtain rfl := List.mem_singleton.mp hf
        exact hcap _ _ _
      · cases hf
  next => cases hf

theorem findings_keyPath : (findings primary caps root).filterMap Finding.keyPath =
    unknownKeyPaths caps root := by
  have hnone := capabilityFindings_none primary caps Finding.keyPath rfl fun _ _ _ => rfl
  rw [findings_filterMap, unknownKeyPaths]
  simp [hnone, Finding.keyPath]

theorem findings_typePath : (findings primary caps root).filterMap Finding.typePath =
    unknownTypePaths caps root := by
  have hnone := capabilityFindings_none primary caps Finding.typePath rfl fun _ _ _ => rfl
  rw [findings_filterMap, unknownTypePaths]
  simp [hnone, Finding.typePath]

/-- The paths are those of the keys and those of the types. -/
theorem path_perm (fs : List Finding) : (fs.filterMap Finding.path).Perm
    (fs.filterMap Finding.keyPath ++ fs.filterMap Finding.typePath) := by
  induction fs with
  | nil => exact .nil
  | cons f fs ih =>
    cases f with
    | key path => exact ih.cons path
    | type path => exact (ih.cons path).trans List.perm_middle.symm
    | object => exact ih
    | capability => exact ih

theorem isObject_of_paths (paths : List String) :
    (paths.map Finding.key).countP Finding.isObject = 0 ∧
      (paths.map Finding.type).countP Finding.isObject = 0 := by
  induction paths with
  | nil => exact ⟨rfl, rfl⟩
  | cons path paths ih => exact ih

theorem findings_isObject : (findings primary caps root).countP Finding.isObject =
    (walkedObjects caps root).countP fun o => (primary o.1).isNone := by
  rw [findings, List.countP_append, List.countP_append, (isObject_of_paths _).1,
    (isObject_of_paths _).2, Nat.zero_add, walkedObjects]
  induction walked caps root with
  | nil => rfl
  | cons e entries ih =>
    rw [List.flatMap_cons, List.countP_append, ih, entryFindings, List.countP_append,
      List.countP_append, (isObject_of_paths _).1, (isObject_of_paths _).2, Nat.zero_add]
    obtain ⟨value, index⟩ := e
    cases value with
    | object object =>
      have hone : (capabilityFindings primary caps.maxSamplePathBytes
          (.object object, index)).countP Finding.isObject =
          if (primary object).isNone then 1 else 0 := by
        rw [capabilityFindings, objectFindings]
        cases primary object <;> cases hasEffects object <;> rfl
      rw [hone]
      simp [asObjectEntry, List.countP_cons, Nat.add_comm]
    | _ => simp [asObjectEntry, capabilityFindings, List.filterMap_cons]

theorem capabilityFindings_idFor (hprimary : ∀ object, primary object ≠ some "scene.effects")
    (c : String) (object : Json.Fields) (index : Nat) :
    (capabilityFindings primary caps.maxSamplePathBytes (.object object, index)).filterMap
        (Finding.idFor c) =
      if primary object = some c || (c = "scene.effects" && hasEffects object) then
        [logicalId object index caps.maxSamplePathBytes]
      else [] := by
  have hnot := hprimary object
  rw [capabilityFindings, objectFindings]
  generalize logicalId object index caps.maxSamplePathBytes = id
  cases hkind : primary object with
  | none =>
    by_cases hc : c = "scene.effects"
    · cases hasEffects object <;> simp [Finding.idFor, hc, List.filterMap_cons]
    · cases hasEffects object <;> simp [Finding.idFor, hc, Ne.symm hc]
  | some d =>
    rw [hkind] at hnot
    by_cases hd : d = c
    · subst hd
      have hc : d ≠ "scene.effects" := fun h => hnot (congrArg some h)
      cases hasEffects object <;> simp [Finding.idFor, hc, Ne.symm hc]
    · by_cases hc : c = "scene.effects"
      · subst hc
        cases hasEffects object <;> simp [Finding.idFor, hd]
      · cases hasEffects object <;> simp [Finding.idFor, hd, hc, Ne.symm hc]

theorem findings_idFor (hprimary : ∀ object, primary object ≠ some "scene.effects") (c : String) :
    (findings primary caps root).filterMap (Finding.idFor c) = idsOf primary caps root c := by
  rw [findings_filterMap, idsOf, walkedObjects]
  simp only [Finding.idFor, List.filterMap_none, List.nil_append]
  induction walked caps root with
  | nil => rfl
  | cons e entries ih =>
    rw [List.flatMap_cons, ih]
    obtain ⟨value, index⟩ := e
    cases value with
    | object object =>
      rw [capabilityFindings_idFor primary caps hprimary]
      simp only [List.filterMap_cons, asObjectEntry, List.filter_cons]
      split <;> simp [*]
    | _ => simp [asObjectEntry, capabilityFindings, List.filterMap_cons]

end Projections

/-! ## The inventory is exact -/

theorem primaryByKeys_ne (object : Json.Fields) :
    primaryByKeys object ≠ some "scene.effects" := by
  unfold primaryByKeys
  dsimp only
  repeat' split
  all_goals decide

/-- The flag of a list, with the mark of a walk that stops early. -/
theorem Kept.sampled {max : Nat} {texts list : List String} {flag : Bool}
    (h : Kept max texts list flag) (early : Bool) :
    Sampled max early texts list (early || flag) := by
  obtain ⟨rfl, rfl⟩ := h
  refine ⟨rfl, ?_⟩
  rw [Bool.or_eq_true, decide_eq_true_eq, length_smallest, or_comm]
  refine or_congr_left ?_
  omega

/-- The inventory of what a builder holds, whether or not the walk stopped. -/
theorem Tally.exact {caps : InventoryCaps} {root : Json} {b : Builder}
    (h : Tally caps (findings primaryByKeys caps root) b) {inventory : Inventory}
    (hunknown : inventory.unknown = ⟨b.unknownKeys, b.unknownTypes, b.unknownObjects,
      b.unknownSamples, stopped caps root || b.unknownTruncated⟩)
    (hdetected : inventory.detected =
      b.detected.map fun d => { d with truncated := stopped caps root || d.truncated }) :
    Exact primaryByKeys caps root inventory := by
  have hids := findings_idFor primaryByKeys caps root primaryByKeys_ne
  obtain ⟨hsorted, heach, hall⟩ := h.detected
  simp only [hids] at heach hall
  refine ⟨?_, ?_, ?_, ?_, fun c => ?_, fun d hd => ?_, fun d hd => ?_, ?_⟩
  · rw [hunknown, ← findings_keyPath primaryByKeys]
    exact h.keys
  · rw [hunknown, ← findings_typePath primaryByKeys]
    exact h.types
  · rw [hunknown, ← findings_isObject]
    exact h.objects
  · rw [hunknown]
    have hperm := (path_perm (findings primaryByKeys caps root)).map
      (truncateBytes · caps.maxSamplePathBytes)
    rw [findings_keyPath, findings_typePath] at hperm
    have hpaths := h.paths.sampled (stopped caps root)
    exact ⟨hpaths.kept.trans (smallest_perm hperm _), by
      rw [hpaths.cut, hperm.length_eq]⟩
  · rw [hdetected]
    constructor
    · intro hnone
      by_contra hsome
      obtain ⟨d, hd, hc⟩ := hall c hsome
      exact hnone _ (List.mem_map_of_mem hd) hc
    · intro hnil d hd hc
      obtain ⟨d, hmem, rfl⟩ := List.mem_map.mp hd
      exact (heach d hmem).1 (hc ▸ hnil)
  · rw [hdetected] at hd
    obtain ⟨d, hmem, rfl⟩ := List.mem_map.mp hd
    exact (heach d hmem).2.1
  · rw [hdetected] at hd
    obtain ⟨d, hmem, rfl⟩ := List.mem_map.mp hd
    exact (heach d hmem).2.2.sampled _
  · rw [hdetected, List.map_map, List.Nodup, List.pairwise_map]
    exact hsorted.imp fun hlt => hlt.ne

/-- **The inventory.**  By the classification of the walk it is exact. -/
theorem inventory_exact (caps : InventoryCaps) (root : Json) :
    ∃ inventory, inventorySceneJson (some root) caps (fun _ => false) = some inventory ∧
      Exact primaryByKeys caps root inventory := by
  have htally := tally_foldl (tally_new caps) (findings primaryByKeys caps root)
  rw [List.nil_append] at htally
  refine ⟨_, inventorySceneJson_eq caps root, ?_⟩
  cases hstopped : stopped caps root with
  | true =>
    rw [if_pos rfl]
    exact htally.exact (by rw [hstopped]; rfl) (by rw [hstopped]; rfl)
  | false =>
    rw [if_neg Bool.false_ne_true]
    refine htally.exact (by rw [hstopped]; rfl) ?_
    rw [hstopped]
    exact (List.map_id' _).symm

/-! ## Two classifications -/

/-- The keys say of the object what the renderer says. -/
def Agrees (object : Json.Fields) : Prop :=
  match Json.get object "image" with
  | some image => (scenePropertyValue image).asStr.isSome ∨
      Json.get object "video" = none ∧ Json.get object "particle" = none ∧
        Json.get object "text" = none
  | none => Json.get object "model" = none

theorem capability_classify (object : Json.Fields) :
    (classifySceneObject object).capability =
      if (((Json.get object "image").map scenePropertyValue).bind Json.asStr).isSome then
        some "scene.layer.image"
      else if (Json.get object "video").isSome then some "scene.layer.video"
      else if (Json.get object "particle").isSome then some "scene.particle"
      else if (Json.get object "text").isSome then some "scene.layer.text"
      else if (Json.get object "image").isSome then some "scene.layer.image"
      else none := by
  unfold classifySceneObject
  dsimp only
  cases ((Json.get object "image").map scenePropertyValue).bind Json.asStr with
  | some reference =>
    dsimp only [Option.isSome_some]
    rw [if_pos rfl]
    repeat' split
    all_goals rfl
  | none =>
    dsimp only [Option.isSome_none]
    rw [if_neg Bool.false_ne_true]
    cases Json.get object "video" with
    | some video => rfl
    | none =>
      cases Json.get object "particle" with
      | some particle =>
        rw [Option.map_some]
        cases scenePropertyValue particle with
        | object fields =>
          dsimp only [Option.isSome_none]
          rw [if_neg Bool.false_ne_true]
          split <;> rfl
        | _ => rfl
      | none =>
        cases Json.get object "text" with
        | some text => rfl
        | none => cases Json.get object "image" <;> rfl

theorem primaryByKind_eq (object : Json.Fields) : primaryByKind object =
    (classifySceneObject object).capability.or
      (if (Json.get object "sound").isSome then some "scene.layer.sound"
      else if (Json.get object "light").isSome then some "scene.lighting"
      else none) := rfl

/-- Where the two differ the keys say an image, which the renderer does not. -/
theorem primary_cases (object : Json.Fields) :
    (Agrees object ∧ primaryByKind object = primaryByKeys object) ∨
      (¬ Agrees object ∧ primaryByKeys object = some "scene.layer.image" ∧
        primaryByKind object ≠ some "scene.layer.image") := by
  cases himage : Json.get object "image" with
  | some image =>
    have hkeys : primaryByKeys object = some "scene.layer.image" := by
      simp [primaryByKeys, himage]
    rw [hkeys, primaryByKind_eq, capability_classify, Agrees, himage]
    by_cases hstring : (scenePropertyValue image).asStr.isSome
    · simp [hstring]
    · cases Json.get object "video" with
      | some video => simp [hstring]
      | none =>
        cases Json.get object "particle" with
        | some particle => simp [hstring]
        | none => cases Json.get object "text" <;> simp [hstring]
  | none =>
    have hkind : primaryByKind object ≠ some "scene.layer.image" := by
      rw [primaryByKind_eq, capability_classify, himage]
      cases Json.get object "video" <;> cases Json.get object "particle" <;>
        cases Json.get object "text" <;> cases Json.get object "sound" <;>
          cases Json.get object "light" <;> simp
    cases hmodel : Json.get object "model" with
    | some model => exact .inr (by simp [Agrees, primaryByKeys, himage, hmodel, hkind])
    | none =>
      refine .inl ⟨by simp [Agrees, himage, hmodel], ?_⟩
      rw [primaryByKind_eq, capability_classify, himage]
      simp only [primaryByKeys, himage, hmodel]
      cases Json.get object "video" with
      | some video => rfl
      | none =>
        cases Json.get object "particle" with
        | some particle => rfl
        | none => cases Json.get object "text" <;> rfl

/-- The image objects of the renderer are among those of the keys, and are fewer
where an object does not agree. -/
theorem length_idsOf_lt {caps : InventoryCaps} {root : Json} {o : Json.Fields × Nat}
    (ho : o ∈ walkedObjects caps root) (h : ¬ Agrees o.1) :
    (idsOf primaryByKind caps root "scene.layer.image").length <
      (idsOf primaryByKeys caps root "scene.layer.image").length := by
  simp only [idsOf, List.length_map, ← List.countP_eq_length_filter]
  obtain ⟨before, after, heq⟩ := List.append_of_mem ho
  rw [heq]
  have hle : ∀ entries : List (Json.Fields × Nat),
      entries.countP (fun o => primaryByKind o.1 = some "scene.layer.image" ||
          ("scene.layer.image" = "scene.effects" && hasEffects o.1)) ≤
        entries.countP fun o => primaryByKeys o.1 = some "scene.layer.image" ||
          ("scene.layer.image" = "scene.effects" && hasEffects o.1) := by
    intro entries
    refine List.countP_mono_left fun o _ hkind => ?_
    rcases primary_cases o.1 with ⟨-, heq⟩ | ⟨-, hkeys, -⟩
    · rwa [← heq]
    · simp [hkeys]
  have hbefore := hle before
  have hafter := hle after
  rcases primary_cases o.1 with ⟨hagrees, -⟩ | ⟨-, hkeys, hkind⟩
  · exact absurd hagrees h
  · rw [List.countP_append, List.countP_append, List.countP_cons, List.countP_cons,
      if_neg (by simp [hkind]), if_pos (by simp [hkeys])]
    omega

theorem length_idsOf_le (primary : Primary) (caps : InventoryCaps) (root : Json) (c : String) :
    (idsOf primary caps root c).length ≤ caps.maxObjectsWalked := by
  have hwalked : (walked caps root).length ≤ caps.maxObjectsWalked := by
    unfold walked
    repeat' split
    all_goals simp
  rw [idsOf, List.length_map]
  exact (List.length_filter_le _ _).trans ((List.length_filterMap_le _ _).trans hwalked)

/-- **Inventories.**  The inventory is exact by the classification of the
renderer just if the keys of every object say what the renderer says. -/
theorem inventory_exact_iff (caps : InventoryCaps) (hcaps : caps.maxObjectsWalked < 2 ^ 64)
    (root : Json) :
    (∃ inventory, inventorySceneJson (some root) caps (fun _ => false) = some inventory ∧
      Exact primaryByKind caps root inventory) ↔
      ∀ o ∈ walkedObjects caps root, Agrees o.1 := by
  obtain ⟨inventory, hinventory, hkeys⟩ := inventory_exact caps root
  constructor
  · rintro ⟨inventory', hinventory', hkind⟩ o ho
    obtain rfl := Option.some.inj (hinventory.symm.trans hinventory')
    by_contra hdiffers
    have hlt := length_idsOf_lt ho hdiffers
    have hsome : idsOf primaryByKeys caps root "scene.layer.image" ≠ [] := by
      intro hnil
      rw [hnil] at hlt
      exact absurd hlt (Nat.not_lt_zero _)
    have hentry := (not_congr (hkeys.absent "scene.layer.image")).mpr hsome
    push Not at hentry
    obtain ⟨d, hd, hc⟩ := hentry
    have hcounts := (hkind.counts d hd).symm.trans (hkeys.counts d hd)
    rw [hc] at hcounts
    have hlength := congrArg UInt64.toNat hcounts
    have hle := length_idsOf_le primaryByKind caps root "scene.layer.image"
    have hle' := length_idsOf_le primaryByKeys caps root "scene.layer.image"
    rw [UInt64.toNat_ofNat_of_lt' (hle.trans_lt hcaps),
      UInt64.toNat_ofNat_of_lt' (hle'.trans_lt hcaps)] at hlength
    exact hlt.ne hlength
  · intro hagree
    have hsame : ∀ o ∈ walkedObjects caps root, primaryByKind o.1 = primaryByKeys o.1 := by
      intro o ho
      rcases primary_cases o.1 with h | h
      · exact h.2
      · exact absurd (hagree o ho) h.1
    have hids : ∀ c, idsOf primaryByKind caps root c = idsOf primaryByKeys caps root c := by
      intro c
      refine congrArg _ (List.filter_congr fun o ho => ?_)
      rw [hsame o ho]
    have hobjects : (walkedObjects caps root).countP (fun o => (primaryByKind o.1).isNone) =
        (walkedObjects caps root).countP fun o => (primaryByKeys o.1).isNone :=
      List.countP_congr fun o ho => by rw [hsame o ho]
    refine ⟨inventory, hinventory, ?_⟩
    exact
      { hkeys with
        objects := by rw [hobjects]; exact hkeys.objects
        absent := fun c => by rw [hids]; exact hkeys.absent c
        counts := fun d hd => by rw [hids]; exact hkeys.counts d hd
        ids := fun d hd => by rw [hids]; exact hkeys.ids d hd }

/-- An image key that is no text, beside a key that the renderer reads instead. -/
def OddImage (object : Json.Fields) : Prop :=
  ∃ image, Json.get object "image" = some image ∧ ¬ (scenePropertyValue image).asStr.isSome ∧
    ¬ (Json.get object "video" = none ∧ Json.get object "particle" = none ∧
      Json.get object "text" = none)

/-- An object whose model stands in a key of its own. -/
def ModelOnly (object : Json.Fields) : Prop :=
  Json.get object "image" = none ∧ Json.get object "model" ≠ none

theorem agrees_of_not_odd {object : Json.Fields} (hodd : ¬ OddImage object)
    (hmodel : ¬ ModelOnly object) : Agrees object := by
  unfold Agrees
  split
  next image himage =>
    by_contra hneither
    rw [not_or] at hneither
    exact hodd ⟨image, himage, hneither.1, hneither.2⟩
  next himage =>
    by_contra hsome
    exact hmodel ⟨himage, hsome⟩

/-- **Classified inventories.**  The inventory is exact by a classification that
puts an object with only a model among the images, and other objects where the
renderer puts them. -/
theorem inventory_classified (caps : InventoryCaps) (root : Json) :
    ∃ inventory primary,
      inventorySceneJson (some root) caps (fun _ => false) = some inventory ∧
      Exact primary caps root inventory ∧
      ∀ object, (ModelOnly object → primary object = some "scene.layer.image") ∧
        (¬ ModelOnly object → ¬ OddImage object → primary object = primaryByKind object) := by
  obtain ⟨inventory, hinventory, hexact⟩ := inventory_exact caps root
  refine ⟨inventory, primaryByKeys, hinventory, hexact, fun object => ⟨?_, ?_⟩⟩
  · rintro ⟨himage, hmodel⟩
    obtain ⟨model, hmodel⟩ := Option.ne_none_iff_exists'.mp hmodel
    simp [primaryByKeys, himage, hmodel]
  · intro hmodel hodd
    rcases primary_cases object with ⟨-, heq⟩ | ⟨hdiffers, -⟩
    · exact heq.symm
    · exact absurd (agrees_of_not_odd hodd hmodel) hdiffers

def modelScene : Json :=
  .object [("objects", .array [.object [("model", .string "models/box.json")]])]

/-- An object with only a model is noted as an image; the renderer puts it in no
family. -/
theorem model_noted_as_image :
    classifySceneObject [("model", .string "models/box.json")] = .other ∧
    ¬ ∃ inventory, inventorySceneJson (some modelScene) .default (fun _ => false) =
        some inventory ∧ Exact primaryByKind .default modelScene inventory := by
  refine ⟨by decide +kernel, ?_⟩
  rintro ⟨inventory, hinventory, hexact⟩
  obtain rfl := Option.some.inj hinventory
  have hnone := (hexact.absent "scene.layer.image").mpr (by decide +kernel)
  exact absurd hnone (by decide +kernel)

end Kwe.Reports

import Kwe.Foundation.Json
import Kwe.Reports.Frames

/-!
The scene inspector: the bounded walk over the objects of a `scene.json`, and
the record built of what it finds.

What the files and the clock give (the hash of the input, the bytes of its
scene, the deadline checks, the elapsed time) is an `Input`.
-/

namespace Kwe.Reports

open Foundation

/-! ## The inventory -/

/-- `InventoryCaps`; its depth is checked by nothing. -/
structure InventoryCaps where
  maxObjectsWalked : Nat
  maxSamples : Nat
  maxSamplePathBytes : Nat

def InventoryCaps.default : InventoryCaps := ⟨4096, 16, 128⟩

structure DetectedCapability where
  capability : String
  count : UInt64
  objects : List String
  truncated : Bool

structure UnknownCounts where
  keys : UInt64
  types : UInt64
  objects : UInt64
  samples : List String
  truncated : Bool

structure Inventory where
  required : List String
  detected : List DetectedCapability
  unknown : UnknownCounts
  limitsHit : List String

def Inventory.default : Inventory := ⟨[], [], ⟨0, 0, 0, [], false⟩, []⟩

/-- `ROOT_KEYS`. -/
def rootKeys : List String := ["general", "objects"]

/-- `OBJECT_KEYS`. -/
def objectKeys : List String :=
  ["name", "id", "origin", "angles", "scale", "alpha", "visible", "blendMode", "colorBlendMode",
    "brightness", "size", "tint", "color", "image", "model", "effects", "text", "font",
    "pointsize", "video", "loop", "rate", "instanceoverride", "particle", "sound", "light"]

/-- `DEADLINE_CHECK_STRIDE`. -/
def deadlineCheckStride : Nat := 256

def truncateBytes (value : String) (maxBytes : Nat) : String :=
  String.ofList (Utf8.truncate maxBytes value.toList)

/-- The insertion at the `partition_point` of a sorted list. -/
def insertSorted (x : String) (kept : List String) : List String :=
  kept.takeWhile (· < x) ++ x :: kept.dropWhile (· < x)

/-- Keeps the `max` smallest; the flag says that something was left out. -/
def keepSmallest (max : Nat) (x : String) (kept : List String) : List String × Bool :=
  if kept.length < max then (insertSorted x kept, false)
  else if kept.getLast?.any (x < ·) then ((insertSorted x kept).dropLast, true)
  else (kept, true)

/-- `Builder`; its maps are lists in the order of their keys. -/
structure Builder where
  caps : InventoryCaps
  detected : List DetectedCapability
  required : List String
  unknownKeys : UInt64
  unknownTypes : UInt64
  unknownObjects : UInt64
  unknownSamples : List String
  unknownTruncated : Bool
  limitsHit : List String

def Builder.new (caps : InventoryCaps) : Builder := ⟨caps, [], [], 0, 0, 0, [], false, []⟩

def Builder.sample (b : Builder) (path : String) : Builder :=
  let path := truncateBytes path b.caps.maxSamplePathBytes
  let (samples, left) := keepSmallest b.caps.maxSamples path b.unknownSamples
  { b with unknownSamples := samples, unknownTruncated := b.unknownTruncated || left }

def Builder.unknownKey (b : Builder) (key : String) : Builder :=
  { b with unknownKeys := b.unknownKeys + 1 }.sample key

def Builder.unknownType (b : Builder) (path : String) : Builder :=
  { b with unknownTypes := b.unknownTypes + 1 }.sample path

/-- One more object with a capability. -/
def DetectedCapability.note (max : Nat) (id : String) (d : DetectedCapability) :
    DetectedCapability :=
  let (objects, left) := keepSmallest max id d.objects
  { d with count := d.count + 1, objects, truncated := d.truncated || left }

/-- `note` at the entry of the capability, made if it is not there. -/
def noteDetected (max : Nat) (capability id : String) :
    List DetectedCapability → List DetectedCapability
  | [] => [DetectedCapability.note max id ⟨capability, 0, [], false⟩]
  | d :: detected =>
    if d.capability = capability then d.note max id :: detected
    else if capability < d.capability then
      DetectedCapability.note max id ⟨capability, 0, [], false⟩ :: d :: detected
    else d :: noteDetected max capability id detected

def Builder.record (b : Builder) (capability id : String) (active : Bool) : Builder :=
  { b with
    detected := noteDetected b.caps.maxSamples capability id b.detected
    required :=
      if active && !b.required.contains capability then insertSorted capability b.required
      else b.required }

/-- The text of a number. -/
def numberText : Json → Option String
  | .nat n => some (String.ofList (Json.write (.nat n)))
  | .neg n => some (String.ofList (Json.write (.neg n)))
  | .float text => some (String.ofList text.1)
  | _ => none

def logicalId (object : Json.Fields) (index maxBytes : Nat) : String :=
  match Json.get object "id" with
  | some (.string text) => truncateBytes ("id:" ++ text) maxBytes
  | some value =>
    match numberText value with
    | some number => truncateBytes ("id:" ++ number) maxBytes
    | none => s!"index:{index}"
  | none => s!"index:{index}"

def Builder.walkObject (b : Builder) (object : Json.Fields) (index : Nat) : Builder :=
  let has (key : String) : Bool := (Json.get object key).isSome
  let b := (object.map (·.1)).foldl (fun (b : Builder) key =>
    if objectKeys.contains key then b else b.unknownKey s!"objects[{index}].{key}") b
  let (active, b) := match Json.get object "visible" with
    | none => (true, b)
    | some (.bool visible) => (visible, b)
    | some (.object _) => (true, b)
    | some _ => (true, b.unknownType s!"objects[{index}].visible")
  let id := logicalId object index b.caps.maxSamplePathBytes
  let primary : Option String :=
    if has "image" || has "model" then some "scene.layer.image"
    else if has "video" then some "scene.layer.video"
    else if has "particle" then some "scene.particle"
    else if has "text" then some "scene.layer.text"
    else if has "sound" then some "scene.layer.sound"
    else if has "light" then some "scene.lighting"
    else none
  let hasEffects : Bool := match Json.get object "effects" with
    | some (.array effects) => !effects.isEmpty
    | _ => false
  let b := match primary with
    | some capability => b.record capability id active
    | none => { b with unknownObjects := b.unknownObjects + 1 }
  if hasEffects then b.record "scene.effects" id active else b

def Builder.truncateAll (b : Builder) : Builder :=
  { b with
    unknownTruncated := true
    detected := b.detected.map fun d => { d with truncated := true } }

def Builder.finish (b : Builder) : Inventory where
  required := b.required
  detected := b.detected
  unknown := ⟨b.unknownKeys, b.unknownTypes, b.unknownObjects, b.unknownSamples,
    b.unknownTruncated⟩
  limitsHit := b.limitsHit

/-- The objects from `index` on; `expired` says at which of them the deadline
is found to have passed. -/
def walkObjects (expired : Nat → Bool) : Nat → List Json → Builder → Builder
  | _, [], b => b
  | index, entry :: rest, b =>
    if b.caps.maxObjectsWalked ≤ index then
      { b with limitsHit := b.limitsHit ++ ["objects-cap"] }.truncateAll
    else if index % deadlineCheckStride = 0 ∧ expired index then
      { b with limitsHit := b.limitsHit ++ ["timeout"] }.truncateAll
    else match entry with
    | .object object => walkObjects expired (index + 1) rest (b.walkObject object index)
    | _ => walkObjects expired (index + 1) rest (b.unknownType s!"objects[{index}]")

/-- `inventory_scene_json`, by what `serde_json::from_slice` makes of the
bytes; no value is its only error. -/
def inventorySceneJson (root : Option Json) (caps : InventoryCaps) (expired : Nat → Bool) :
    Option Inventory :=
  root.map fun root =>
    match root with
    | .object object =>
      let b := (object.map (·.1)).foldl (fun (b : Builder) key =>
        if rootKeys.contains key then b else b.unknownKey key) (Builder.new caps)
      match Json.get object "objects" with
      | none => b.finish
      | some (.array objects) => (walkObjects expired 0 objects b).finish
      | some _ => (b.unknownType "objects").finish
    | _ => ((Builder.new caps).unknownType "$").finish

/-! ## The record -/

/-- `MAX_REPORT_BYTES`. -/
def maxReportBytes : Nat := 65536

/-- `INSPECTOR_BUILD`. -/
def inspectorBuild : String := "dev"

/-- `INSPECTOR_ABI`. -/
def inspectorAbi : Nat := 0

def sceneInspectionSchema : String := "scene-inspection-v1"

def sceneCapabilitiesSchema : String := "scene-capabilities-v1"

inductive RecordFormat
  | v0 | v1
  deriving DecidableEq, Repr

/-- The draft schema of version 0. -/
def sceneInventorySchema : String := "scene-feature-inventory-v0"

/-- Two lower-case digits a byte. -/
def hexEncode (bytes : List UInt8) : String :=
  String.ofList (bytes.flatMap fun b =>
    [Nat.digitChar (b.toNat / 16), Nat.digitChar (b.toNat % 16)])

/-- `value[key] = x` of an object. -/
def setField (value : Json) (key : String) (x : Json) : Json :=
  match value with
  | .object fields => .object (Json.set fields key x)
  | other => other

def strings (texts : List String) : Json := .array (texts.map .string)

def detectedJson (d : DetectedCapability) : Json :=
  Json.obj [("capability", .string d.capability), ("count", .nat d.count.toNat),
    ("objects", strings d.objects), ("truncated", .bool d.truncated)]

/-- What the outcome of an inspection adds to its inventory. -/
structure Outcome where
  outcome : String
  reason : String
  kind : String
  hash : String
  sourceBytes : UInt64
  wallMs : UInt64
  limitsHit : List String

/-- The record before its digest. -/
def undigested (o : Outcome) (inventory : Inventory) (format : RecordFormat) : Json :=
  let record := Json.obj
    [("schema", .string (if format = .v0 then sceneInventorySchema else sceneInspectionSchema)),
      ("content", Json.obj [("hash", .string o.hash), ("source_bytes", .nat o.sourceBytes.toNat),
        ("kind", .string o.kind)]),
      ("inspector", Json.obj [("build", .string inspectorBuild), ("abi", .nat inspectorAbi)]),
      ("outcome", .string o.outcome),
      ("reason", .string o.reason),
      ("required", strings inventory.required),
      ("detected", .array (inventory.detected.map detectedJson)),
      ("unknown", Json.obj [("keys", .nat inventory.unknown.keys.toNat),
        ("types", .nat inventory.unknown.types.toNat),
        ("objects", .nat inventory.unknown.objects.toNat),
        ("samples", strings inventory.unknown.samples),
        ("truncated", .bool inventory.unknown.truncated)]),
      ("bounds", Json.obj [("wall_ms", .nat o.wallMs.toNat), ("peak_bytes", .nat 0),
        ("limits_hit", strings o.limitsHit)]),
      ("digest", .string "")]
  match format with
  | .v0 => record
  | .v1 =>
    setField (setField record "capabilities_schema" (.string sceneCapabilitiesSchema)) "backend"
      .null

section Record

-- SHA-256
variable (sha256 : List UInt8 → List UInt8)

def buildRecord (o : Outcome) (inventory : Inventory) (format : RecordFormat) : Json :=
  let record := undigested o inventory format
  setField record "digest" (.string (hexEncode (sha256 record.toBytes)))

/-- `bound_report`, with the newline. -/
def boundReport (record : Json) (format : RecordFormat) : List UInt8 :=
  let bytes := record.toBytes
  let bytes :=
    if maxReportBytes < bytes.length then
      (buildRecord sha256 ⟨"unknown", "report-oversize", "", "", 0, 0, []⟩ .default format).toBytes
    else bytes
  bytes ++ [0x0a]

end Record

/-! ## The input -/

inductive Classification
  | pkg | jsonDir | unrecognized
  deriving DecidableEq, Repr

inductive HashOutcome
  | ok (hash : String) (bytes : UInt64)
  | oversize (bytes : UInt64)
  | timeout (bytes : UInt64)
  | ioError

inductive PkgSceneJson
  | bytes (sceneBytes : List UInt8)
  | missing
  | oversize

structure Input where
  classification : Classification
  hashed : HashOutcome
  /-- The second read of a `scene.json` on its own. -/
  sceneJson : Option (List UInt8)
  package : PkgSceneJson
  expired : Nat → Bool
  wallMs : UInt64

/-- `add_scene_package`. -/
def addScenePackage (inventory : Inventory) : Inventory :=
  { inventory with
    detected := (inventory.detected ++
      [(⟨"scene.package", 1, [], false⟩ : DetectedCapability)]).insertionSort
      (·.capability ≤ ·.capability)
    required :=
      if inventory.required.contains "scene.package" then inventory.required
      else insertSorted "scene.package" inventory.required }

def packageOnlyInventory (isPkg : Bool) : Inventory :=
  if isPkg then addScenePackage .default else .default

section Inspect

variable (fromSlice : List UInt8 → Except String Json) (sha256 : List UInt8 → List UInt8)

def inventoriedRecord (input : Input) (kind hash : String) (sourceBytes : UInt64)
    (sceneBytes : List UInt8) (isPkg : Bool) (format : RecordFormat) : Json :=
  match inventorySceneJson (fromSlice sceneBytes).toOption .default input.expired with
  | none =>
    buildRecord sha256 ⟨"incompatible", "parse-error", kind, hash, sourceBytes, input.wallMs, []⟩
      (packageOnlyInventory isPkg) format
  | some inventory =>
    let inventory := if isPkg then addScenePackage inventory else inventory
    let (outcome, reason) :=
      if inventory.limitsHit.contains "timeout" then ("unknown", "timeout")
      else ("inventoried", "ok")
    buildRecord sha256
      ⟨outcome, reason, kind, hash, sourceBytes, input.wallMs, inventory.limitsHit⟩ inventory format

/-- A record without an inventory. -/
def emptyRecord (input : Input) (outcome reason kind hash : String) (sourceBytes : UInt64)
    (limitsHit : List String) (format : RecordFormat) : Json :=
  buildRecord sha256 ⟨outcome, reason, kind, hash, sourceBytes, input.wallMs, limitsHit⟩ .default
    format

def jsonDirRecord (input : Input) (format : RecordFormat) : Json :=
  match input.hashed with
  | .ok hash bytes =>
    match input.sceneJson with
    | some sceneBytes =>
      inventoriedRecord fromSlice sha256 input "json-dir" hash bytes sceneBytes false format
    | none => emptyRecord sha256 input "unknown" "io-error" "json-dir" hash bytes [] format
  | .oversize bytes =>
    emptyRecord sha256 input "incompatible" "oversize" "json-dir" "" bytes ["oversize"] format
  | .timeout bytes =>
    emptyRecord sha256 input "unknown" "timeout" "json-dir" "" bytes ["timeout"] format
  | .ioError => emptyRecord sha256 input "unknown" "io-error" "json-dir" "" 0 [] format

def pkgRecord (input : Input) (format : RecordFormat) : Json :=
  match input.hashed with
  | .ok hash bytes =>
    match input.package with
    | .bytes sceneBytes =>
      inventoriedRecord fromSlice sha256 input "pkg" hash bytes sceneBytes true format
    | .missing =>
      emptyRecord sha256 input "incompatible" "parse-error" "pkg" hash bytes
        ["pkg-no-scene-json"] format
    | .oversize =>
      emptyRecord sha256 input "incompatible" "oversize" "pkg" hash bytes
        ["pkg-scene-json-oversize"] format
  | .oversize bytes =>
    emptyRecord sha256 input "incompatible" "oversize" "pkg" "" bytes ["oversize"] format
  | .timeout bytes =>
    emptyRecord sha256 input "unknown" "timeout" "pkg" "" bytes ["timeout"] format
  | .ioError => emptyRecord sha256 input "unknown" "io-error" "pkg" "" 0 [] format

def inspectInput (input : Input) (format : RecordFormat) : Json :=
  match input.classification with
  | .unrecognized =>
    emptyRecord sha256 input "incompatible" "unrecognized-input" "" "" 0 [] format
  | .pkg => pkgRecord fromSlice sha256 input format
  | .jsonDir => jsonDirRecord fromSlice sha256 input format

/-- The payload `main` writes to the report descriptor. -/
def reportPayload (input : Input) : List UInt8 :=
  let bytes := boundReport sha256 (inspectInput fromSlice sha256 input .v1) .v1
  bytes.take (bytes.length - 1)

end Inspect

end Kwe.Reports

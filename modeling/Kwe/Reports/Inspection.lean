import Kwe.Foundation.Checks
import Kwe.Reports.Inspector

/-!
The check of an inspection record, against the inspector that writes it.

* `inspection_validates`: the payload the inspector writes fits a frame, is
  accepted, and reads back as the record it built, or as the minimal one when
  that is too long; and no value other than an accepted one is accepted under
  the same digest.
-/

namespace Kwe.Reports

open Foundation Foundation.Checks

/-! ## The validator -/

inductive ValidationError
  | parse (detail : String)
  | notAnObject
  | wrongSchema
  | wrongCapabilitiesSchema
  | missingField (path : String)
  | wrongType (path : String)
  | digestMismatch
  deriving DecidableEq, Repr

/-- A required field, as `accept` takes it. -/
def require {α : Type} (accept : Json → Option α) (map : Json.Fields) (key path : String) :
    Except ValidationError α :=
  match Json.get map key with
  | none => .error (.missingField path)
  | some value =>
    match accept value with
    | some a => .ok a
    | none => .error (.wrongType path)

def asObject : Json → Option Json.Fields
  | .object fields => some fields
  | _ => none

def asArray : Json → Option (List Json)
  | .array items => some items
  | _ => none

def isNumber : Json → Option Unit
  | .nat _ | .neg _ | .float _ => some ()
  | _ => none

def asBool : Json → Option Bool
  | .bool b => some b
  | _ => none

def isNullOrObject : Json → Option Unit
  | .null | .object _ => some ()
  | _ => none

/-- `require_str`; the name is taken by the check of the shader response. -/
def requireString : Json.Fields → String → String → Except ValidationError String :=
  require Json.asStr

def requireObject : Json.Fields → String → String → Except ValidationError Json.Fields :=
  require asObject

def requireArray : Json.Fields → String → String → Except ValidationError (List Json) :=
  require asArray

def requireNumber : Json.Fields → String → String → Except ValidationError Unit :=
  require isNumber

def requireBool : Json.Fields → String → String → Except ValidationError Bool :=
  require asBool

def requireNullOrObject : Json.Fields → String → String → Except ValidationError Unit :=
  require isNullOrObject

/-- The fields of a record, and its digest. -/
def requireFields (object : Json.Fields) : Except ValidationError String := do
  let schema ← requireString object "schema" "schema"
  if schema ≠ sceneInspectionSchema then .error .wrongSchema
  else
    let capabilitiesSchema ← requireString object "capabilities_schema" "capabilities_schema"
    if capabilitiesSchema ≠ sceneCapabilitiesSchema then .error .wrongCapabilitiesSchema
    else
      let content ← requireObject object "content" "content"
      let _ ← requireString content "hash" "content.hash"
      let _ ← requireNumber content "source_bytes" "content.source_bytes"
      let _ ← requireString content "kind" "content.kind"
      let inspector ← requireObject object "inspector" "inspector"
      let _ ← requireString inspector "build" "inspector.build"
      let _ ← requireNumber inspector "abi" "inspector.abi"
      let _ ← requireString object "outcome" "outcome"
      let _ ← requireString object "reason" "reason"
      let _ ← requireArray object "required" "required"
      let _ ← requireArray object "detected" "detected"
      let unknown ← requireObject object "unknown" "unknown"
      let _ ← requireNumber unknown "keys" "unknown.keys"
      let _ ← requireNumber unknown "types" "unknown.types"
      let _ ← requireNumber unknown "objects" "unknown.objects"
      let _ ← requireArray unknown "samples" "unknown.samples"
      let _ ← requireBool unknown "truncated" "unknown.truncated"
      let bounds ← requireObject object "bounds" "bounds"
      let _ ← requireNumber bounds "wall_ms" "bounds.wall_ms"
      let _ ← requireArray bounds "limits_hit" "bounds.limits_hit"
      let _ ← requireNullOrObject object "backend" "backend"
      requireString object "digest" "digest"

def validateInspection (fromSlice : List UInt8 → Except String Json)
    (sha256 : List UInt8 → List UInt8) (payload : List UInt8) : Except ValidationError Json := do
  let value ← (fromSlice payload).mapError .parse
  match value with
  | .object object =>
    let digest ← requireFields object
    let recomputed := hexEncode (sha256 (setField value "digest" (.string "")).toBytes)
    if recomputed ≠ digest then .error .digestMismatch else .ok value
  | _ => .error .notAnObject

/-! ## What was accepted -/

theorem require_ok {α : Type} {accept : Json → Option α} {map : Json.Fields} {key path : String}
    {a : α} (h : require accept map key path = .ok a) :
    ∃ value, Json.get map key = some value ∧ accept value = some a := by
  unfold require at h
  split at h
  next => simp at h
  next value hvalue =>
    split at h
    next b hb =>
      obtain rfl : b = a := by simpa using h
      exact ⟨value, hvalue, hb⟩
    next => simp at h

theorem requireFields_ok {object : Json.Fields} {digest : String}
    (h : requireFields object = .ok digest) :
    Json.get object "digest" = some (.string digest) := by
  unfold requireFields at h
  obtain ⟨_, -, h⟩ := bind_ok h
  obtain ⟨-, h⟩ := check_ok h
  obtain ⟨_, -, h⟩ := bind_ok h
  obtain ⟨-, h⟩ := check_ok h
  iterate 21 obtain ⟨_, -, h⟩ := bind_ok h
  obtain ⟨value, hvalue, hdigest⟩ := require_ok h
  rw [hvalue]
  cases value with
  | string s =>
    obtain rfl : s = digest := by simpa [Json.asStr] using hdigest
    rfl
  | _ => simp [Json.asStr] at hdigest

/-- What an accepted payload says of its value. -/
theorem validateInspection_ok {fromSlice : List UInt8 → Except String Json}
    {sha256 : List UInt8 → List UInt8} {payload : List UInt8} {value : Json}
    (h : validateInspection fromSlice sha256 payload = .ok value) :
    ∃ object digest, value = .object object ∧ fromSlice payload = .ok value ∧
      Json.get object "digest" = some (.string digest) ∧
      hexEncode (sha256 (Json.object (Json.set object "digest" (.string ""))).toBytes) = digest := by
  unfold validateInspection at h
  obtain ⟨parsed, hparsed, h⟩ := bind_ok h
  have hslice : fromSlice payload = .ok parsed := by
    cases hs : fromSlice payload with
    | error e => simp [hs, Except.mapError] at hparsed
    | ok v => simpa [hs, Except.mapError] using hparsed
  split at h
  next object =>
    obtain ⟨digest, hdigest, h⟩ := bind_ok h
    dsimp only at h
    obtain ⟨hmatch, h⟩ := check_ok h
    obtain rfl : Json.object object = value := by simpa using h
    exact ⟨object, digest, rfl, hslice, requireFields_ok hdigest, not_not.mp hmatch⟩
  next => simp at h

theorem hexEncode_injective : Function.Injective hexEncode := by
  have hdigit : ∀ m < 16, ∀ n < 16, Nat.digitChar m = Nat.digitChar n → m = n := by decide
  have hlist : ∀ a b : List UInt8,
      (a.flatMap fun c => [Nat.digitChar (c.toNat / 16), Nat.digitChar (c.toNat % 16)]) =
        (b.flatMap fun c => [Nat.digitChar (c.toNat / 16), Nat.digitChar (c.toNat % 16)]) →
      a = b := by
    intro a
    induction a with
    | nil =>
      intro b h
      cases b with
      | nil => rfl
      | cons d b => simp at h
    | cons c a ih =>
      intro b h
      cases b with
      | nil => simp at h
      | cons d b =>
        simp only [List.flatMap_cons, List.cons_append, List.nil_append, List.cons.injEq] at h
        obtain ⟨hhigh, hlow, hrest⟩ := h
        have hc := c.toNat_lt
        have hd := d.toNat_lt
        have hdiv := hdigit _ (by omega) _ (by omega) hhigh
        have hmod := hdigit _ (by omega) _ (by omega) hlow
        have hcd : c = d := UInt8.toNat_inj.mp (by omega)
        rw [hcd, ih b hrest]
  intro a b h
  exact hlist a b (String.ofList_injective h)

/-- What the digest of a value is computed of. -/
def blanked (value : Json) : Json := setField value "digest" (.string "")

/-- **One digest, one value**, unless the hash takes two texts for one. -/
theorem value_of_digest {fromSlice : List UInt8 → Except String Json}
    {sha256 : List UInt8 → List UInt8} {payload payload' : List UInt8} {value value' : Json}
    (hsha : sha256 (blanked value').toBytes = sha256 (blanked value).toBytes →
      (blanked value').toBytes = (blanked value).toBytes)
    (h : validateInspection fromSlice sha256 payload = .ok value)
    (h' : validateInspection fromSlice sha256 payload' = .ok value')
    (hdigest : value'.field "digest" = value.field "digest") : value' = value := by
  obtain ⟨object, digest, rfl, -, hget, hhash⟩ := validateInspection_ok h
  obtain ⟨object', digest', rfl, -, hget', hhash'⟩ := validateInspection_ok h'
  simp only [Json.field, hget, hget', Option.some.injEq, Json.string.injEq] at hdigest
  subst hdigest
  have hset : Json.set object' "digest" (.string "") = Json.set object "digest" (.string "") := by
    have := Json.toBytes_injective (hsha (hexEncode_injective (hhash'.trans hhash.symm)))
    simpa [blanked, setField] using this
  -- Both values have the digest put back where it was blanked out.
  calc Json.object object'
      = .object (Json.set (Json.set object' "digest" (.string "")) "digest" (.string digest')) := by
        rw [Json.set_set, Json.set_get hget']
    _ = .object (Json.set (Json.set object "digest" (.string "")) "digest" (.string digest')) := by
        rw [hset]
    _ = .object object := by
        rw [Json.set_set, Json.set_get hget]

/-! ## What the inspector writes -/

theorem plain_strings (depth : Nat) (texts : List String) :
    Json.Plain (depth + 1) (strings texts) := by
  refine .array fun v hv => ?_
  obtain ⟨text, -, rfl⟩ := List.mem_map.mp hv
  exact .string _ _

theorem plain_detectedJson (depth : Nat) (d : DetectedCapability) :
    Json.Plain (depth + 2) (detectedJson d) := by
  refine .obj (depth + 1) ?_
  simp only [List.forall_mem_cons, List.not_mem_nil, IsEmpty.forall_iff, implies_true, and_true]
  exact ⟨.string _ _, .nat _ d.count.toNat_lt, plain_strings depth _, .bool _ _⟩

/-- The record before its digest, as its fields. -/
theorem undigested_v1 (o : Outcome) (inventory : Inventory) :
    ∃ fields, undigested o inventory .v1 = .object fields ∧
      Json.Plain 127 (.object fields) ∧ Json.get fields "digest" = some (.string "") ∧
      ∀ digest, requireFields (Json.set fields "digest" (.string digest)) = .ok digest := by
  refine ⟨_, rfl, ?_, ?_, fun digest => ?_⟩
  · refine .set (.set (.obj 126 ?_) (.string _ _) _) (.null _) _
    simp only [List.forall_mem_cons, List.not_mem_nil, IsEmpty.forall_iff, implies_true, and_true]
    refine ⟨.string _ _, .obj 125 ?_, .obj 125 ?_, .string _ _, .string _ _,
      plain_strings _ _, @Json.Plain.array 125 _ ?_, .obj 125 ?_, .obj 125 ?_,
      .string _ _⟩
    · simp only [List.forall_mem_cons, List.not_mem_nil, IsEmpty.forall_iff, implies_true, and_true]
      exact ⟨.string _ _, .nat _ o.sourceBytes.toNat_lt, .string _ _⟩
    · simp only [List.forall_mem_cons, List.not_mem_nil, IsEmpty.forall_iff, implies_true, and_true]
      exact ⟨.string _ _, .nat _ (by decide)⟩
    · intro v hv
      obtain ⟨d, -, rfl⟩ := List.mem_map.mp hv
      exact plain_detectedJson 123 d
    · simp only [List.forall_mem_cons, List.not_mem_nil, IsEmpty.forall_iff, implies_true, and_true]
      exact ⟨.nat _ inventory.unknown.keys.toNat_lt, .nat _ inventory.unknown.types.toNat_lt,
        .nat _ inventory.unknown.objects.toNat_lt, plain_strings _ _, .bool _ _⟩
    · simp only [List.forall_mem_cons, List.not_mem_nil, IsEmpty.forall_iff, implies_true, and_true]
      exact ⟨.nat _ o.wallMs.toNat_lt, .nat _ (by decide), plain_strings _ _⟩
  · simp [Json.obj, Json.get_set]
  · simp [requireFields, requireString, requireObject, requireNumber, requireArray, requireBool,
      requireNullOrObject, require, Json.obj, Json.get_set, Json.asStr, asObject,
      isNumber, asArray, asBool, isNullOrObject, strings]

section Records

variable {fromSlice : List UInt8 → Except String Json} {sha256 : List UInt8 → List UInt8}

theorem validateInspection_buildRecord (hback : Json.ReadsBack fromSlice) (o : Outcome)
    (inventory : Inventory) :
    validateInspection fromSlice sha256 (buildRecord sha256 o inventory .v1).toBytes =
      .ok (buildRecord sha256 o inventory .v1) := by
  obtain ⟨fields, hfields, hplain, hget, hrequire⟩ := undigested_v1 o inventory
  have hrecord : buildRecord sha256 o inventory .v1 = .object (Json.set fields "digest"
      (.string (hexEncode (sha256 (Json.object fields).toBytes)))) := by
    rw [buildRecord, hfields, setField]
  rw [hrecord]
  generalize hd : hexEncode (sha256 (Json.object fields).toBytes) = digest
  -- The digest that is blanked out was set over an empty one.
  have hblank : Json.set (Json.set fields "digest" (.string digest)) "digest" (.string "") =
      fields := by
    rw [Json.set_set, Json.set_get hget]
  rw [validateInspection, hback _ (hplain.set (.string _ _) _)]
  simp only [Except.mapError, bind, Except.bind, hrequire, setField, hblank, hd, ne_eq,
    not_true_eq_false, if_false]

/-- Every record is built of an outcome and an inventory. -/
theorem inspectInput_eq (input : Input) :
    ∃ o inventory, inspectInput fromSlice sha256 input .v1 =
      buildRecord sha256 o inventory .v1 := by
  have hinventoried : ∀ kind hash sourceBytes sceneBytes isPkg, ∃ o inventory,
      inventoriedRecord fromSlice sha256 input kind hash sourceBytes sceneBytes isPkg .v1 =
        buildRecord sha256 o inventory .v1 := by
    intro kind hash sourceBytes sceneBytes isPkg
    unfold inventoriedRecord
    split
    next => exact ⟨_, _, rfl⟩
    next => exact ⟨_, _, rfl⟩
  rw [inspectInput]
  cases input.classification with
  | unrecognized => exact ⟨_, _, rfl⟩
  | pkg =>
    dsimp only [pkgRecord]
    cases input.hashed with
    | ok hash bytes =>
      cases input.package with
      | bytes => exact hinventoried _ _ _ _ _
      | missing => exact ⟨_, _, rfl⟩
      | oversize => exact ⟨_, _, rfl⟩
    | oversize => exact ⟨_, _, rfl⟩
    | timeout => exact ⟨_, _, rfl⟩
    | ioError => exact ⟨_, _, rfl⟩
  | jsonDir =>
    dsimp only [jsonDirRecord]
    cases input.hashed with
    | ok hash bytes =>
      cases input.sceneJson with
      | some sceneBytes => exact hinventoried _ _ _ _ _
      | none => exact ⟨_, _, rfl⟩
    | oversize => exact ⟨_, _, rfl⟩
    | timeout => exact ⟨_, _, rfl⟩
    | ioError => exact ⟨_, _, rfl⟩

/-- What is written of a record that is too long. -/
def minimalRecord (sha256 : List UInt8 → List UInt8) : Json :=
  buildRecord sha256 ⟨"unknown", "report-oversize", "", "", 0, 0, []⟩ .default .v1

theorem minimalRecord_eq (sha256 : List UInt8 → List UInt8) :
    ∃ bytes, minimalRecord sha256 =
      .object [("backend", .null),
        ("bounds", .object [("limits_hit", .array []), ("peak_bytes", .nat 0),
          ("wall_ms", .nat 0)]),
        ("capabilities_schema", .string sceneCapabilitiesSchema),
        ("content", .object [("hash", .string ""), ("kind", .string ""),
          ("source_bytes", .nat 0)]),
        ("detected", .array []),
        ("digest", .string (hexEncode (sha256 bytes))),
        ("inspector", .object [("abi", .nat inspectorAbi), ("build", .string inspectorBuild)]),
        ("outcome", .string "unknown"),
        ("reason", .string "report-oversize"),
        ("required", .array []),
        ("schema", .string sceneInspectionSchema),
        ("unknown", .object [("keys", .nat 0), ("objects", .nat 0), ("samples", .array []),
          ("truncated", .bool false), ("types", .nat 0)])] := by
  refine ⟨(undigested ⟨"unknown", "report-oversize", "", "", 0, 0, []⟩ .default .v1).toBytes, ?_⟩
  rw [minimalRecord, buildRecord]
  generalize hexEncode _ = digest
  simp [undigested, setField, Inventory.default, strings, Json.obj, Json.set, Json.get,
    -String.lt_iff_ltb]

theorem size_hexEncode (bytes : List UInt8) :
    Utf8.size (hexEncode bytes).toList = 2 * bytes.length := by
  have hdigit : ∀ n < 16, (Nat.digitChar n).utf8Size = 1 := by decide
  rw [hexEncode, String.toList_ofList]
  induction bytes with
  | nil => rfl
  | cons b bytes ih =>
    have hb := b.toNat_lt
    rw [List.flatMap_cons, Utf8.size_append, ih, List.length_cons, Utf8.size_cons, Utf8.size_cons,
      hdigit _ (by omega), hdigit _ (by omega), Utf8.size_nil]
    omega

theorem length_minimalRecord_le (hlength : ∀ bytes, (sha256 bytes).length = 32) :
    (minimalRecord sha256).toBytes.length ≤ maxReportBytes := by
  obtain ⟨bytes, hrecord⟩ := minimalRecord_eq sha256
  have hdigest := Json.size_quoted_le (hexEncode (sha256 bytes))
  rw [size_hexEncode, hlength] at hdigest
  have hkey : Utf8.size "digest".toList = 6 := by decide
  rw [Json.toBytes, Utf8.length_encode, hrecord]
  refine (Json.size_write_object_le (w := 1000) ?_).trans (by simp [maxReportBytes])
  simp only [List.forall_mem_cons, List.not_mem_nil, IsEmpty.forall_iff, implies_true, and_true]
  refine ⟨by decide, by decide, by decide, by decide, by decide, ?_, by decide, by decide,
    by decide, by decide, by decide, by decide⟩
  rw [hkey, Json.write]
  omega

theorem reportPayload_eq (input : Input) :
    reportPayload fromSlice sha256 input =
      (if (inspectInput fromSlice sha256 input .v1).toBytes.length ≤ maxReportBytes then
        inspectInput fromSlice sha256 input .v1 else minimalRecord sha256).toBytes := by
  rw [reportPayload, boundReport]
  by_cases h : (inspectInput fromSlice sha256 input .v1).toBytes.length ≤ maxReportBytes
  · simp [Nat.not_lt.mpr h, h]
  · simp [Nat.not_le.mp h, h, minimalRecord]

/-- **What the inspector writes, and what the check accepts.** -/
theorem inspection_validates (hback : Json.ReadsBack fromSlice)
    (hlength : ∀ bytes, (sha256 bytes).length = 32) :
    (∀ input : Input,
      (reportPayload fromSlice sha256 input).length ≤ maxPayloadBytes ∧
      validateInspection fromSlice sha256 (reportPayload fromSlice sha256 input) =
        .ok (if (inspectInput fromSlice sha256 input .v1).toBytes.length ≤ maxReportBytes then
          inspectInput fromSlice sha256 input .v1 else minimalRecord sha256)) ∧
    ∀ payload value payload' value',
      validateInspection fromSlice sha256 payload = .ok value →
      fromSlice payload' = .ok value' →
      value'.field "digest" = value.field "digest" → value' ≠ value →
      (sha256 (blanked value').toBytes = sha256 (blanked value).toBytes →
        (blanked value').toBytes = (blanked value).toBytes) →
      ∃ e, validateInspection fromSlice sha256 payload' = .error e := by
  refine ⟨fun input => ?_, ?_⟩
  · rw [reportPayload_eq]
    obtain ⟨o, inventory, hrecord⟩ := @inspectInput_eq fromSlice sha256 input
    split
    next hle =>
      refine ⟨hle, ?_⟩
      rw [hrecord]
      exact validateInspection_buildRecord hback o inventory
    next =>
      exact ⟨length_minimalRecord_le hlength, validateInspection_buildRecord hback _ _⟩
  · intro payload value payload' value' h hslice hdigest hne hsha
    cases h' : validateInspection fromSlice sha256 payload' with
    | error e => exact ⟨e, rfl⟩
    | ok accepted =>
      obtain ⟨_, _, -, hslice', -, -⟩ := validateInspection_ok h'
      obtain rfl : accepted = value' := Except.ok.inj (hslice'.symm.trans hslice)
      exact absurd (value_of_digest hsha h h' hdigest) hne

end Records

/-! ## An unrecognized input -/

def unrecognizedInput : Input :=
  ⟨.unrecognized, .ioError, none, .missing, fun _ => false, 3⟩

/-- The text under the digest of the record of `unrecognizedInput`, with this outcome. -/
def unrecognizedText (outcome : String) : List UInt8 :=
  (undigested ⟨outcome, "unrecognized-input", "", "", 0, 3, []⟩ .default .v1).toBytes

def incompatibleDigest : List UInt8 :=
  [0x4f, 0x5a, 0x62, 0x16, 0xbe, 0x76, 0x1e, 0x66, 0xc8, 0xdf, 0xf1, 0xda, 0x61,
    0x98, 0xe5, 0x7d, 0xf9, 0x51, 0x69, 0x97, 0xa1, 0xd3, 0xc9, 0x40, 0xf2, 0xc7,
    0x98, 0xfd, 0x3c, 0x59, 0x4f, 0x61]

def inventoriedDigest : List UInt8 :=
  [0xba, 0x40, 0x8e, 0x5b, 0x5c, 0x3a, 0x4b, 0xc2, 0x3e, 0xc6, 0x57, 0x4b, 0x69,
    0xb8, 0x94, 0x2c, 0x9b, 0x9b, 0x09, 0x19, 0x32, 0x8f, 0x74, 0xb1, 0x4d, 0xbb,
    0xf6, 0xef, 0x08, 0xce, 0x1d, 0x44]

/-- SHA-256 on two texts. -/
def sha256Table (bytes : List UInt8) : List UInt8 :=
  if bytes = unrecognizedText "incompatible" then incompatibleDigest
  else if bytes = unrecognizedText "inventoried" then inventoriedDigest
  else List.replicate 32 0

theorem length_sha256Table (bytes : List UInt8) : (sha256Table bytes).length = 32 := by
  unfold sha256Table
  split
  next => rfl
  next =>
    split
    next => rfl
    next => rfl

theorem sha256Table_inj {bytes : List UInt8}
    (h : sha256Table bytes = sha256Table (unrecognizedText "incompatible")) :
    bytes = unrecognizedText "incompatible" := by
  by_contra hne
  rw [sha256Table, if_neg hne, sha256Table, if_pos rfl] at h
  split at h
  next => exact absurd h (by decide)
  next => exact absurd h (by decide)

def unrecognizedRecord : Json :=
  buildRecord sha256Table ⟨"incompatible", "unrecognized-input", "", "", 0, 3, []⟩ .default .v1

/-- The record of an input that is neither, and the same record claiming it
was inventoried. -/
theorem inspection_validates_unrecognized :
    (reportPayload Json.readCompact sha256Table unrecognizedInput).length ≤ maxPayloadBytes ∧
      ∃ e, validateInspection Json.readCompact sha256Table
        (setField unrecognizedRecord "outcome" (.string "inventoried")).toBytes = .error e := by
  have hvalidates := inspection_validates Json.readsBack_readCompact length_sha256Table
  obtain ⟨fields, hfields, hplain, hget, -⟩ :=
    undigested_v1 ⟨"incompatible", "unrecognized-input", "", "", 0, 3, []⟩ .default
  obtain ⟨digest, hrecord⟩ : ∃ digest, unrecognizedRecord =
      .object (Json.set fields "digest" (.string digest)) := by
    rw [unrecognizedRecord, buildRecord, hfields]
    exact ⟨_, rfl⟩
  have hblanked : blanked unrecognizedRecord =
      undigested ⟨"incompatible", "unrecognized-input", "", "", 0, 3, []⟩ .default .v1 := by
    rw [hrecord, blanked, setField, Json.set_set, Json.set_get hget, hfields]
  have houtcome : unrecognizedRecord.field "outcome" = some (.string "incompatible") := by
    simp [unrecognizedRecord, buildRecord, undigested, setField, Json.field, Json.obj,
      Json.get_set]
  refine ⟨(hvalidates.1 unrecognizedInput).1,
    hvalidates.2 unrecognizedRecord.toBytes unrecognizedRecord _
      (setField unrecognizedRecord "outcome" (.string "inventoried"))
      (validateInspection_buildRecord Json.readsBack_readCompact _ _) ?_ ?_ ?_ ?_⟩
  · rw [Json.readCompact, Json.ofBytes_toBytes]
  · rw [hrecord]
    simp [setField, Json.field, Json.get_set]
  · intro hsame
    rw [← hsame, hrecord] at houtcome
    simp [setField, Json.field, Json.get_set] at houtcome
  · intro hsha
    rw [hblanked] at hsha ⊢
    exact sha256Table_inj hsha

end Kwe.Reports

import Kwe.Foundation.Bytes
import Kwe.Foundation.Json
import Kwe.Foundation.Logged
import Kwe.Shader.Declarations

/-!
The effects of a scene object: their files, the materials of their passes, and
the textures of these.

The lookup of an asset answers a reference the same way whenever it is asked. The
JSON reader and the scale of a buffer, a single-precision number, are
parameters.
-/

namespace Kwe.Scene

open Foundation Foundation.Bytes

def maxEffectJsonBytes : Nat := 1024 * 1024

def maxEffectsPerObject : Nat := 32

def maxPassesPerEffect : Nat := 16

def maxFbosPerEffect : Nat := 16

def maxMaterialTextures : Nat := 8

def previousInput : String := "previous"

def isRuntimeTargetName (name : String) : Bool :=
  "_rt_".toList.isPrefixOf name.toList || "_alias_".toList.isPrefixOf name.toList

/-! ## Texture headers -/

def ascii (text : String) : List UInt8 := text.toList.map fun c => UInt8.ofNat c.toNat

def isTexv (bytes : List UInt8) : Bool :=
  decide (8 ≤ bytes.length) && bytes.take 8 = ascii "TEXV0005"

def maxTextureDimension : Nat := 8192

def maxImageCount : Nat := 16

def maxSingleTextureBudgetBytes : Nat := 256 * 1024 * 1024

def headerAt (size : Nat) (bytes : List UInt8) (offset : Nat) : Except String (List UInt8) :=
  if offset + size ≤ bytes.length then .ok (slice bytes offset size)
  else .error "texture header truncated"

def u32At (bytes : List UInt8) (offset : Nat) : Except String Nat :=
  (headerAt 4 bytes offset).map fromLe

def magic9At (bytes : List UInt8) (offset : Nat) : Except String (List UInt8) :=
  headerAt 9 bytes offset

def checkDimension (label : String) (dim : Nat) : Except String Unit :=
  if dim = 0 ∨ maxTextureDimension < dim then
    .error ("texture " ++ label ++ " " ++ toString dim ++ " is 0 or over the " ++
      toString maxTextureDimension ++ " cap")
  else .ok ()

/-- The formats that are decoded. -/
def implementedFormats : List Nat := [0, 9, 8, 7, 6, 4, 12]

/-- The bytes of the decoded texture. -/
def checkHeader (bytes : List UInt8) : Except String Nat := do
  let magic ← magic9At bytes 0
  if magic ≠ ascii "TEXV0005\x00" then throw "unexpected texture container magic"
  let magic ← magic9At bytes 9
  if magic ≠ ascii "TEXI0001\x00" then throw "unexpected texture sub-container magic"
  let format ← u32At bytes 18
  let _flags ← u32At bytes 22
  let textureWidth ← u32At bytes 26
  let textureHeight ← u32At bytes 30
  let width ← u32At bytes 34
  let height ← u32At bytes 38
  checkDimension "in-memory width" textureWidth
  checkDimension "in-memory height" textureHeight
  checkDimension "real width" width
  checkDimension "real height" height
  let containerMagic ← magic9At bytes 46
  let imageCount ← u32At bytes 55
  let fifActive : Bool ←
    if containerMagic = ascii "TEXB0004\x00" ∨ containerMagic = ascii "TEXB0003\x00" then
      (u32At bytes 59).map fun value => decide (value ≠ 2 ^ 32 - 1)
    else if containerMagic = ascii "TEXB0002\x00" ∨ containerMagic = ascii "TEXB0001\x00" then
      pure false
    else throw "unknown texture sub-container version"
  if imageCount = 0 ∨ maxImageCount < imageCount then
    throw ("texture image count " ++ toString imageCount ++ " is 0 or over the " ++
      toString maxImageCount ++ " cap")
  if !fifActive && !implementedFormats.contains format then
    throw ("texture format " ++ toString format ++ " is not implemented by this build's decoder")
  pure (width * height * 4)

/-! ## Effects -/

/-- An entry of `fbos`; `F` holds its scale. -/
structure FboSpec (F : Type) where
  name : String
  format : String
  scale : F
  unique : Bool

inductive EffectTextureSlot
  | texture (name textureRef : String) (bytes : List UInt8)
  | renderTarget (name : String)
  | previous
  deriving DecidableEq, Repr

structure EffectMaterialPass where
  materialRef : String
  shader : Option String
  blending : Option String
  combos : Json.Fields
  constantShaderValues : Json.Fields
  textureSlots : List (Option EffectTextureSlot)
  target : Option String

inductive EffectCommand
  | copy | swap
  deriving DecidableEq, Repr

structure EffectCommandPass where
  command : EffectCommand
  source : String
  target : String
  deriving DecidableEq, Repr

inductive EffectPass
  | material (pass : EffectMaterialPass)
  | command (pass : EffectCommandPass)

structure EffectSpec (F : Type) where
  name : String
  fbos : List (FboSpec F)
  passes : List EffectPass

structure ObjectEffect (F : Type) where
  id : Int
  name : String
  visible : Bool
  effect : EffectSpec F

/-! ## Reading values -/

def asObject : Json → Option Json.Fields
  | .object fields => some fields
  | _ => none

def asArray : Json → Option (List Json)
  | .array items => some items
  | _ => none

def asBool : Json → Option Bool
  | .bool b => some b
  | _ => none

def asI64 : Json → Option Int
  | .nat n => if n < 2 ^ 63 then some n else none
  | .neg n => if n < 2 ^ 63 then some (-(n + 1)) else none
  | _ => none

def stringAt (object : Json.Fields) (key : String) : Option String :=
  (Json.get object key).bind Json.asStr

def objectAt (object : Json.Fields) (key : String) : Option Json.Fields :=
  (Json.get object key).bind asObject

/-- `Map::extend`. -/
def extend (fields more : Json.Fields) : Json.Fields :=
  more.foldl (fun fields f => Json.set fields f.1 f.2) fields

/-! ## Names of texture slots -/

/-- The names by slot. -/
abbrev Names := Nat → Option String

def noNames : Names := fun _ => none

def Names.insert (names : Names) (index : Nat) (name : String) : Names :=
  fun i => if i = index then some name else names i

/-- The names, and over them those of `more`. -/
def Names.insertAll (names more : Names) : Names := fun i => (more i).or (names i)

def nonEmpty (text : String) : Option String := if text = "" then none else some text

def nameFromEntry : Json → Option String
  | .string text => nonEmpty text
  | .object object => (stringAt object "name").bind nonEmpty
  | _ => none

def positionalNames (array : List Json) : Names :=
  fun i => ((array.take maxMaterialTextures)[i]?).bind nameFromEntry

/-- The entry of an object with an index for its key. -/
def keyedName (names : Names) (e : String × Json) : Names :=
  match Shader.parseU32 e.1.toList with
  | some index =>
    if maxMaterialTextures ≤ index then names
    else
      match nameFromEntry e.2 with
      | some name => names.insert index name
      | none => names
  | none => names

def hasIndex (entry : Json) : Bool :=
  ((asObject entry).bind fun object => Json.get object "index").isSome

/-- The entry of a list of binds. -/
def boundName (names : Names) (entry : Json) : Names :=
  match asObject entry with
  | some object =>
    match (Json.get object "index").bind Json.asU64 with
    | some index =>
      if maxMaterialTextures ≤ index then names
      else
        match (stringAt object "name").bind nonEmpty with
        | some name => names.insert index name
        | none => names
    | none => names
  | none => names

def parseIndexNameEntries : Option Json → Names
  | some (.object map) => (map.take (maxMaterialTextures * 4)).foldl keyedName noNames
  | some (.array array) =>
    if array.any hasIndex then (array.take (maxMaterialTextures * 4)).foldl boundName noNames
    else positionalNames array
  | _ => noNames

structure PassOverride where
  combos : Json.Fields
  constants : Json.Fields
  textures : Names
  usertextures : Names

def parsePassOverride (value : Json) : PassOverride :=
  let object := asObject value
  { combos := (object.bind (objectAt · "combos")).getD []
    constants := (object.bind (objectAt · "constantshadervalues")).getD []
    textures := parseIndexNameEntries (object.bind (Json.get · "textures"))
    usertextures := parseIndexNameEntries (object.bind (Json.get · "usertextures")) }

/-! ## Passes -/

section Resolve

variable {F : Type} (fromSlice : List UInt8 → Option Json) (positiveF32 : Json → Option F) (one : F)
  (lookup : String → Option (List UInt8))

abbrev Looked (α : Type) := Logged String α

/-- A lookup. -/
def look (reference : String) : Looked (List UInt8) := ⟨lookup reference, [reference]⟩

def boundedJson (bytes : List UInt8) : Option Json :=
  if maxEffectJsonBytes < bytes.length then none
  else (fromSlice bytes).filter fun value => (asObject value).isSome

def textureAssetPath (name : String) : String := "materials/" ++ name ++ ".tex"

/-- The bytes of a texture, if its header is none or a good one. -/
def checkTexture (bytes : List UInt8) : Option (List UInt8) :=
  if isTexv bytes then
    match checkHeader bytes with
    | .ok realBytes => if maxSingleTextureBudgetBytes < realBytes then none else some bytes
    | .error _ => none
  else some bytes

def resolveTextureSlotName (name : String) : Looked EffectTextureSlot :=
  if name = previousInput then pure .previous
  else if isRuntimeTargetName name then pure (.renderTarget name)
  else do
    let bytes ← look lookup (textureAssetPath name)
    let bytes ← .ofOption (checkTexture bytes)
    pure (.texture name (textureAssetPath name) bytes)

def resolveSlot (names : Names) (index : Nat) : Looked (Option EffectTextureSlot) :=
  match names index with
  | none => pure (if index = 0 then some .previous else none)
  | some name => do
    let slot ← resolveTextureSlotName lookup name
    pure (some slot)

def baseNames (pass0 : Json.Fields) : Names :=
  match (Json.get pass0 "textures").bind asArray with
  | some array => positionalNames array
  | none => noNames

/-- The names of a pass, each source over those before it. -/
def passNames (pass0 : Json.Fields) (override : Option PassOverride) (passObject : Json.Fields) :
    Names :=
  let names := baseNames pass0
  let names :=
    match override with
    | some o => (names.insertAll o.usertextures).insertAll o.textures
    | none => names
  names.insertAll (parseIndexNameEntries (Json.get passObject "bind"))

/-- The first pass of a material file. -/
def firstPass (material : Json) : Option Json.Fields :=
  (asObject material).bind fun object =>
    match (Json.get object "passes").bind asArray with
    | some (pass0 :: _) => asObject pass0
    | _ => none

def resolveMaterialPass (passObject : Json.Fields) (override : Option PassOverride) :
    Looked EffectMaterialPass := do
  let materialRef ← .ofOption (stringAt passObject "material")
  let materialBytes ← look lookup materialRef
  let pass0 ← .ofOption ((boundedJson fromSlice materialBytes).bind firstPass)
  let combos := (objectAt pass0 "combos").getD []
  let constants := (objectAt pass0 "constantshadervalues").getD []
  let slots ← .forEach (resolveSlot lookup (passNames pass0 override passObject))
    (List.range maxMaterialTextures)
  pure
    { materialRef
      shader := stringAt pass0 "shader"
      blending := stringAt pass0 "blending"
      combos := extend combos (override.elim [] (·.combos))
      constantShaderValues := extend constants (override.elim [] (·.constants))
      textureSlots := slots
      target := stringAt passObject "target" }

def commandOf (name : String) : Option EffectCommand :=
  if name = "copy" then some .copy
  else if name = "swap" then some .swap
  else none

def resolveCommandPass (passObject : Json.Fields) : Option EffectCommandPass := do
  let command ← (stringAt passObject "command").bind commandOf
  let source ← stringAt passObject "source"
  let target ← stringAt passObject "target"
  pure ⟨command, source, target⟩

def isCommand (passObject : Json.Fields) : Bool := (Json.get passObject "command").isSome

/-- The passes from an override on. -/
def resolvePasses (overrides : List Json) : Nat → List Json → Looked (List EffectPass)
  | _, [] => pure []
  | overrideIndex, entry :: rest => do
    let passObject ← .ofOption (asObject entry)
    if isCommand passObject then
      let command ← .ofOption (resolveCommandPass passObject)
      let passes ← resolvePasses overrides overrideIndex rest
      pure (.command command :: passes)
    else
      let material ← resolveMaterialPass fromSlice lookup passObject
        ((overrides[overrideIndex]?).map parsePassOverride)
      let passes ← resolvePasses overrides (overrideIndex + 1) rest
      pure (.material material :: passes)

def fboSpec (entry : Json) : Option (FboSpec F) := do
  let object ← asObject entry
  let name ← stringAt object "name"
  pure
    { name
      format := (stringAt object "format").getD "rgba8888"
      scale := ((Json.get object "scale").bind positiveF32).getD one
      unique := ((Json.get object "unique").bind asBool).getD false }

def parseEffectSpec (effectObject : Json.Fields) (overrides : List Json) :
    Looked (EffectSpec F) := do
  let fbos := ((((Json.get effectObject "fbos").bind asArray).getD []).take
    maxFbosPerEffect).filterMap (fboSpec positiveF32 one)
  let rawPasses ← .ofOption ((Json.get effectObject "passes").bind asArray)
  if rawPasses.isEmpty then .ofOption none
  else
    let passes ← resolvePasses fromSlice lookup overrides 0 (rawPasses.take maxPassesPerEffect)
    pure { name := (stringAt effectObject "name").getD "", fbos, passes }

def overridesOf (effectObject : Json.Fields) : List Json :=
  ((Json.get effectObject "passes").bind asArray).getD []

/-- An entry of `effects`; a failure leaves it out. -/
def resolveEntry (entry : Json) : Looked (ObjectEffect F) := do
  let effectObject ← .ofOption (asObject entry)
  let fileRef ← .ofOption (stringAt effectObject "file")
  let effectBytes ← look lookup fileRef
  let effectRoot ← .ofOption ((boundedJson fromSlice effectBytes).bind asObject)
  let spec ← parseEffectSpec fromSlice positiveF32 one lookup effectRoot (overridesOf effectObject)
  pure
    { id := ((Json.get effectObject "id").bind asI64).getD 0
      name := (stringAt effectObject "name").getD ""
      visible := ((Json.get effectObject "visible").bind asBool).getD true
      effect := spec }

/-- The effects of an object, and the references that were looked up. -/
def resolveObjectEffects (entries : List Json) : List (ObjectEffect F) × List String :=
  let resolved := (entries.take maxEffectsPerObject).map
    (resolveEntry fromSlice positiveF32 one lookup)
  (resolved.filterMap (·.result), resolved.flatMap (·.log))

end Resolve

end Kwe.Scene

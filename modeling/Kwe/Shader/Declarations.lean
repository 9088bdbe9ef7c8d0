import Kwe.Foundation.Format
import Kwe.Shader.Conditions

/-!
`fold_declarations`: the declarations of the live lines of a shader are rewritten
for Vulkan, all other lines are kept.

What becomes of each line is a `Rewritten`; the text, the attributes and the
sampler slots are read off these.
-/

namespace Kwe.Shader

open Foundation

def maxMaterialTextures : Nat := 8

def maxMaterialConstants : Nat := 16

def maxZeroArrayLen : Nat := 1024

inductive PreprocessError
  | includeDepthExceeded
  | tooManyIncludes
  | sizeExceeded (bytes limit : Nat)
  | tooManyTextures (name : Text) (index : Nat)
  | invalidComboName (name : Text)
  | ambiguousCondition (expr : Text)
  deriving DecidableEq, Repr

/-! ## Texts -/

/-- `char::is_whitespace`. -/
def isSpace (c : Char) : Bool :=
  (9 ≤ c.toNat && c.toNat ≤ 13) || (0x2000 ≤ c.toNat && c.toNat ≤ 0x200A) ||
    c.toNat ∈ [0x20, 0x85, 0xA0, 0x1680, 0x2028, 0x2029, 0x202F, 0x205F, 0x3000]

def trimStart (text : Text) : Text := text.dropWhile isSpace

def trim (text : Text) : Text := (trimStart text).rdropWhile isSpace

/-- `strip_prefix`. -/
def stripStart (start text : Text) : Option Text := Format.expect start text

/-- `strip_suffix`. -/
def stripEnd (ending text : Text) : Option Text :=
  (Format.expect ending.reverse text.reverse).map List.reverse

/-- The text before and after the first `c`. -/
def splitFirst (c : Char) (text : Text) : Option (Text × Text) :=
  if c ∈ text then some (text.takeWhile (· ≠ c), (text.dropWhile (· ≠ c)).tail) else none

/-- The text before and after the last `c`. -/
def splitLast (c : Char) (text : Text) : Option (Text × Text) :=
  (splitFirst c text.reverse).map fun p => (p.2.reverse, p.1.reverse)

/-- `split_inclusive('\n')`. -/
def splitInclusive : Text → List Text
  | [] => []
  | c :: text =>
    if c = '\n' then [c] :: splitInclusive text
    else
      match splitInclusive text with
      | [] => [[c]]
      | line :: lines => (c :: line) :: lines

/-- `str::parse::<u32>`. -/
def parseU32 (text : Text) : Option Nat :=
  let digits := if text.head? = some '+' then text.tail else text
  let n := Nat.ofDigitChars 10 digits 0
  if digits ≠ [] ∧ digits.all Char.isDigit ∧ n < 2 ^ 32 then some n else none

def decimal (n : Nat) : Text := Nat.toDigits 10 n

/-! ## Declarations -/

def precisionQualifiers : List Text := ["lowp".toList, "mediump".toList, "highp".toList]

/-- The type without a precision qualifier. -/
def stripPrecision (glslType : Text) : Text :=
  (precisionQualifiers.findSome? fun qualifier =>
    (stripStart qualifier glslType).bind fun rest =>
      if rest.head?.any isSpace then some (trimStart rest) else none).getD glslType

/-- The type and the name of `TYPE NAME;`. -/
def parseDecl (rest : Text) : Option (Text × Text) := do
  let (body, _) ← splitFirst ';' rest
  let (glslType, name) ← splitLast ' ' (trim body)
  let glslType := stripPrecision (trim glslType)
  let name := trim name
  if glslType.isEmpty || name.isEmpty then none else some (glslType, name)

/-- The name and the number of elements of `NAME[N]`. -/
def parseArrayDeclarator (name : Text) : Option (Text × Nat) := do
  let (base, rest) ← splitFirst '[' name
  let size ← stripEnd [']'] rest
  if base.isEmpty || size.isEmpty || !size.all Char.isDigit then none
  else
    let size ← parseU32 size
    if size = 0 || maxZeroArrayLen < size then none else some (base, size)

def narrowingSwizzle (glslType : Text) : Text :=
  if glslType = "vec2".toList then ".xy".toList
  else if glslType = "vec3".toList then ".xyz".toList
  else []

/-- The number of `g_Texture<N>` and what follows it. -/
def textureIndex (ending name : Text) : Option Nat := do
  let rest ← stripStart "g_Texture".toList name
  let index ← (stripEnd ending rest).bind parseU32
  if index < maxMaterialTextures then some index else none

def pointIndex (name : Text) : Option Nat := do
  let index ← (stripStart "g_Point".toList name).bind parseU32
  if index < 8 then some index else none

/-- The other standard uniforms. -/
def standardUniforms : List (String × String) :=
  [("g_ModelViewProjectionMatrix", "u_Std.g_ModelViewProjectionMatrix_"),
    ("g_EffectTextureProjectionMatrix", "u_Std.g_EffectTextureProjectionMatrix_"),
    ("g_ModelMatrix", "mat4(1.0)"), ("g_AltModelMatrix", "mat4(1.0)"),
    ("g_ViewProjectionMatrix", "mat4(1.0)"), ("g_AltViewProjectionMatrix", "mat4(1.0)"),
    ("g_NormalModelMatrix", "mat3(1.0)"), ("g_AltNormalModelMatrix", "mat3(1.0)"),
    ("g_Color", "u_Std.g_Color_"),
    ("g_ParallaxPosition", "u_Std.g_ParallaxPointer_.xy"),
    ("g_PointerPosition", "u_Std.g_ParallaxPointer_.zw"),
    ("g_TexelSize", "u_Std.g_TextureResolution_[0].zw"),
    ("g_Time", "u_Std.g_TimeAlphaBrightness_.x"),
    ("g_UserAlpha", "u_Std.g_TimeAlphaBrightness_.y"),
    ("g_Brightness", "u_Std.g_TimeAlphaBrightness_.z"),
    ("g_Color4", "vec4(u_Std.g_TimeAlphaBrightness_.zzz, u_Std.g_TimeAlphaBrightness_.y)")]

def standardUniformExpr (name glslType : Text) : Option Text :=
  match textureIndex "Resolution".toList name with
  | some index => some ("u_Std.g_TextureResolution_[".toList ++ decimal index ++ [']'])
  | none =>
    match textureIndex "Rotation".toList name with
    | some _ => some "vec4(1.0, 0.0, 0.0, 1.0)".toList
    | none =>
      match pointIndex name with
      | some index =>
        some ("u_Std.g_Point_[".toList ++ decimal index ++ ']' :: narrowingSwizzle glslType)
      | none =>
        (standardUniforms.find? fun uniform => uniform.1.toList = name).map (·.2.toList)

def zeroLiteral (glslType : Text) : Option Text :=
  ([("float", "float(0.0)"), ("int", "int(0)"), ("bool", "bool(false)"), ("vec2", "vec2(0.0)"),
    ("vec3", "vec3(0.0)"), ("vec4", "vec4(0.0)"), ("mat3", "mat3(0.0)"),
    ("mat4", "mat4(0.0)")].find? fun zero => zero.1.toList = glslType).map (·.2.toList)

def materialConstantSwizzle (glslType : Text) : Option Text :=
  ([("float", ".x"), ("vec2", ".xy"), ("vec3", ".xyz"),
    ("vec4", "")].find? fun swizzle => swizzle.1.toList = glslType).map (·.2.toList)

/-! ## Conditionals -/

structure CondFrame where
  branchTaken : Bool
  activeHere : Bool
  deriving DecidableEq, Repr

def isLive (stack : List CondFrame) : Bool := stack.all (·.activeHere)

/-- The condition of a live `#if` or `#elif`; 193 nested calls are enough. -/
def judge (combosUpper : Combos) (expr : Text) : Except PreprocessError Bool :=
  match evaluateIfExpr combosUpper 193 expr with
  | .ok value => .ok value
  | .error _ => .error (.ambiguousCondition (expr.take 200))

/-- A conditional, on the stack of the frames that are open, the innermost first. -/
def directive (combosUpper : Combos) (stack : List CondFrame) (trimmed : Text) :
    Option (Except PreprocessError (List CondFrame)) :=
  let defined (name : Text) : Bool := (SortedMap.get combosUpper (trim name)).isSome
  if let some rest := stripStart "#ifdef ".toList trimmed then
    let taken := isLive stack && defined rest
    some (.ok (⟨taken, taken⟩ :: stack))
  else if let some rest := stripStart "#ifndef ".toList trimmed then
    let taken := isLive stack && !defined rest
    some (.ok (⟨taken, taken⟩ :: stack))
  else if let some rest := stripStart "#if ".toList trimmed then
    if isLive stack then
      some ((judge combosUpper (trim rest)).map fun taken => ⟨taken, taken⟩ :: stack)
    else some (.ok (⟨false, false⟩ :: stack))
  else if let some rest := stripStart "#elif ".toList trimmed then
    some (match stack with
      | [] => .ok []
      | frame :: below =>
        if frame.branchTaken then .ok ({ frame with activeHere := false } :: below)
        else if isLive below then
          (judge combosUpper (trim rest)).map fun taken => ⟨taken, taken⟩ :: below
        else .ok ({ frame with activeHere := false } :: below))
  else if trimmed = "#else".toList then
    some (.ok (match stack with
      | [] => []
      | frame :: below => ⟨true, isLive below && !frame.branchTaken⟩ :: below))
  else if trimmed = "#endif".toList then some (.ok stack.tail)
  else none

/-! ## Lines -/

/-- What becomes of a line. -/
inductive Rewritten
  | kept
  | unsupported (name : Text)
  | attribute (glslType name : Text) (location : Nat)
  | varying (glslType name : Text) (location : Nat)
  | sampler (name : Text) (index : Nat)
  | define (name expr : Text)
  | const (glslType name zero : Text)
  | array (glslType name base : Text) (size : Nat) (zero : Text)
  deriving DecidableEq, Repr

/-- What stands for the line, between its indent and its newline. -/
def Rewritten.text : Rewritten → Option Text
  | .kept | .unsupported _ => none
  | .attribute glslType name location =>
    some ("layout(location = ".toList ++ decimal location ++ ") attribute ".toList ++ glslType ++
      ' ' :: name ++ [';'])
  | .varying glslType name location =>
    some ("layout(location = ".toList ++ decimal location ++ ") varying ".toList ++ glslType ++
      ' ' :: name ++ [';'])
  | .sampler name index =>
    some ("layout(set = 0, binding = ".toList ++ decimal index ++ ") uniform sampler2D ".toList ++
      name ++ [';'])
  | .define name expr => some ("#define ".toList ++ name ++ ' ' :: expr)
  | .const glslType name zero =>
    some ("const ".toList ++ glslType ++ ' ' :: name ++ " = ".toList ++ zero ++ [';'])
  | .array glslType _ base size zero =>
    some (glslType ++ ' ' :: base ++ '[' :: decimal size ++ "] = ".toList ++ glslType ++
      '[' :: decimal size ++ "](".toList ++
      (", ".toList).intercalate (List.replicate size zero) ++ ");".toList)

structure Slots where
  nextAttributeLocation : Nat
  nextSamplerSlot : Nat
  usedSamplerSlots : List Bool
  varyingLocations : List (Text × Nat)
  deriving DecidableEq, Repr

/-- The number of `g_Texture<N>`. -/
def explicitSlot (name : Text) : Option Nat :=
  (stripStart "g_Texture".toList name).bind parseU32

/-- The loop over used slots. -/
def skipUsed (used : List Bool) : Nat → Nat → Nat
  | 0, slot => slot
  | fuel + 1, slot =>
    if slot < maxMaterialTextures && used.getD slot false then skipUsed used fuel (slot + 1)
    else slot

def rewriteSampler (slots : Slots) (name : Text) : Except PreprocessError (Slots × Rewritten) :=
  let (slots, index) :=
    match explicitSlot name with
    | some n => (slots, n)
    | none =>
      let next := skipUsed slots.usedSamplerSlots maxMaterialTextures slots.nextSamplerSlot
      ({ slots with nextSamplerSlot := next }, next)
  if maxMaterialTextures ≤ index then .error (.tooManyTextures name index)
  else
    .ok ({ slots with usedSamplerSlots := slots.usedSamplerSlots.set index true },
      .sampler name index)

section Fold

variable (combosUpper : Combos) (materialConstants : List Text)
  (uniformMaterialKeys : List (Text × Text))

/-- The slot of a material constant, and the part of it that a uniform reads. -/
def constantExpr (name glslType : Text) : Option Text := do
  let constantKey := (SortedMap.get uniformMaterialKeys name).getD name
  let slot ← materialConstants.findIdx? (· = constantKey)
  let swizzle ← materialConstantSwizzle glslType
  if slot < maxMaterialConstants then
    some ("u_Std.g_MaterialConstants_[".toList ++ decimal slot ++ ']' :: swizzle)
  else none

def rewriteUniform (slots : Slots) (glslType name : Text) :
    Except PreprocessError (Slots × Rewritten) :=
  if glslType = "sampler2D".toList then rewriteSampler slots name
  else if '[' ∉ glslType ∧ '[' ∉ name then
    match standardUniformExpr name glslType with
    | some expr => .ok (slots, .define name expr)
    | none =>
      match constantExpr materialConstants uniformMaterialKeys name glslType with
      | some expr => .ok (slots, .define name expr)
      | none =>
        match zeroLiteral glslType with
        | some zero => .ok (slots, .const glslType name zero)
        | none => .ok (slots, .unsupported name)
  else if '[' ∉ glslType then
    match parseArrayDeclarator name, zeroLiteral glslType with
    | some (base, size), some zero => .ok (slots, .array glslType name base size zero)
    | _, _ => .ok (slots, .unsupported name)
  else .ok (slots, .unsupported name)

def rewriteLine (slots : Slots) (trimmed : Text) : Except PreprocessError (Slots × Rewritten) :=
  if let some rest := stripStart "attribute ".toList trimmed then
    match parseDecl rest with
    | none => .ok (slots, .kept)
    | some (glslType, name) =>
      let location := slots.nextAttributeLocation
      .ok ({ slots with nextAttributeLocation := location + 1 },
        .attribute glslType name location)
  else if let some rest := stripStart "varying ".toList trimmed then
    match parseDecl rest with
    | none => .ok (slots, .kept)
    | some (glslType, name) =>
      match SortedMap.get slots.varyingLocations name with
      | some location => .ok (slots, .varying glslType name location)
      | none =>
        let next := slots.varyingLocations.length
        .ok ({ slots with
          varyingLocations := SortedMap.insert slots.varyingLocations name next },
          .varying glslType name next)
  else
    match (stripStart "uniform ".toList trimmed).bind parseDecl with
    | none => .ok (slots, .kept)
    | some (glslType, name) =>
      rewriteUniform materialConstants uniformMaterialKeys slots glslType name

structure FoldState where
  condStack : List CondFrame
  slots : Slots
  lines : List (Text × Rewritten)
  deriving DecidableEq, Repr

def foldLine (st : FoldState) (line : Text) : Except PreprocessError FoldState :=
  match directive combosUpper st.condStack (trim line) with
  | some (.error e) => .error e
  | some (.ok stack) =>
    .ok { st with condStack := stack, lines := st.lines ++ [(line, .kept)] }
  | none =>
    if !isLive st.condStack then .ok { st with lines := st.lines ++ [(line, .kept)] }
    else
      match rewriteLine materialConstants uniformMaterialKeys st.slots (trim line) with
      | .error e => .error e
      | .ok (slots, rewritten) =>
        .ok { st with slots := slots, lines := st.lines ++ [(line, rewritten)] }

end Fold

/-- A line of the output. -/
def outLine (line : Text × Rewritten) : Text :=
  match line.2.text with
  | none => line.1
  | some text =>
    line.1.takeWhile isSpace ++ text ++ if line.1.getLast? = some '\n' then ['\n'] else []

def FoldState.rewritten (st : FoldState) : List Rewritten := st.lines.map (·.2)

def FoldState.source (st : FoldState) : Text := st.lines.flatMap outLine

/-- `to_uppercase` of an ASCII text; the names of combos are. -/
def toUppercase (name : Text) : Text := name.map Char.toUpper

/-- The combos under their upper-cased names; of two that have the same the last
stays. -/
def upperCombos (combos : Combos) : Combos :=
  SortedMap.ofList (combos.map fun combo => (toUppercase combo.1, combo.2))

def foldDeclarations (source : Text) (materialConstants : List Text)
    (varyingLocations : List (Text × Nat)) (combos : Combos)
    (uniformMaterialKeys : List (Text × Text)) : Except PreprocessError FoldState :=
  (splitInclusive source).foldlM
    (foldLine (upperCombos combos) materialConstants uniformMaterialKeys)
    ⟨[], ⟨0, 0, List.replicate maxMaterialTextures false, varyingLocations⟩, []⟩

end Kwe.Shader

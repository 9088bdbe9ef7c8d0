import Kwe.Foundation.Json
import Kwe.Foundation.Search
import Kwe.Shader.Includes

/-!
`preprocess`: a shader with its includes, its combos as macros and its declarations
rewritten.
-/

namespace Kwe.Shader

open Foundation

/-! ## Combos -/

def isValidComboName : Text → Bool
  | [] => false
  | first :: rest =>
    (first.isAlpha || first = '_') && decide (Utf8.size (first :: rest) ≤ 64) &&
      rest.all isWordChar

/-- A line of `str::lines`. -/
def lineText (line : Text) : Text :=
  match stripEnd ['\n'] line with
  | none => line
  | some text => (stripEnd ['\r'] text).getD text

/-- `find`. -/
def findFirst (pattern text : Text) : Option Nat :=
  (List.range (text.length + 1)).find? fun i => pattern.isPrefixOf (text.drop i)

structure UniformMeta where
  glslType : Text
  name : Text
  json : Option Json

/-- `as_i64`, and zero for what is no such number. -/
def comboDefault : Option Json → Int
  | some (.nat n) => if n < 2 ^ 63 then n else 0
  | some (.neg n) => if n < 2 ^ 63 then -(n + 1) else 0
  | _ => 0

section Scrape

-- `fromStr` reads the text of a JSON value.
variable (fromStr : Text → Option Json)

/-- The valid combo that the text after a `[COMBO]` mark declares, and its default. -/
def comboOf (jsonText : Text) : Option (Text × Int) :=
  match fromStr jsonText with
  | some (.object object) =>
    match (Json.get object "combo").bind Json.asStr with
    | some combo =>
      if isValidComboName combo.toList then
        some (combo.toList, comboDefault (Json.get object "default"))
      else none
    | none => none
  | _ => none

/-- A `uniform` with a comment on its line. -/
def uniformMeta (line : Text) : Option UniformMeta := do
  let semicolon ← findFirst [';'] line
  let comment ← findFirst ['/', '/', ' '] line
  if (findFirst "uniform ".toList line).isSome ∧ semicolon < comment then
    let (head, name) ← splitLast ' ' (line.take semicolon)
    let (_, glslType) ← splitLast ' ' head
    if trim glslType = [] ∨ trim name = [] ∨ '[' ∈ trim name then none
    else some ⟨trim glslType, trim name, fromStr (line.drop (comment + 3))⟩
  else none

def comboMark : Text := "// [COMBO] ".toList

def scrapeLine (materialCombos : Combos) (st : Combos × List UniformMeta) (line : Text) :
    Combos × List UniformMeta :=
  match Search.after comboMark line with
  | some jsonText =>
    match comboOf fromStr jsonText with
    | none => st
    | some (combo, default) =>
      if (SortedMap.get materialCombos combo).isSome || (SortedMap.get st.1 combo).isSome then st
      else (SortedMap.insert st.1 combo default, st.2)
  | none =>
    match uniformMeta fromStr line with
    | none => st
    | some uniform => (st.1, st.2 ++ [uniform])

def scrape (source : Text) (materialCombos : Combos) : Combos × List UniformMeta :=
  ((splitInclusive source).map lineText).foldl (scrapeLine fromStr materialCombos) ([], [])

end Scrape

/-- The combos of the material and those found in the shader. -/
def mergeCombos (materialCombos discovered : Combos) : Combos :=
  discovered.foldl
    (fun combos combo =>
      if (SortedMap.get combos combo.1).isSome then combos
      else SortedMap.insert combos combo.1 combo.2) materialCombos

/-- The names of the properties that the uniforms stand for. -/
def uniformMaterialKeys (uniforms : List UniformMeta) : List (Text × Text) :=
  SortedMap.ofList (uniforms.filterMap fun uniform =>
    match uniform.json with
    | some (.object object) =>
      ((Json.get object "material").bind Json.asStr).map fun key => (uniform.name, key.toList)
    | _ => none)

/-! ## Parts of the text -/

def linesText (lines : List String) : Text := lines.flatMap fun line => line.toList ++ ['\n']

def shaderHeader : Text := linesText
  ["#version 330", "#extension GL_ARB_shading_language_420pack : enable",
    "#extension GL_ARB_separate_shader_objects : enable", "precision highp float;",
    "#define mul(x, y) ((y) * (x))", "#define lerp mix", "#define frac fract",
    "#define CAST2(x) (vec2(x))", "#define CAST3(x) (vec3(x))", "#define CAST4(x) (vec4(x))",
    "#define CAST3X3(x) (mat3(x))", "#define float2 vec2", "#define float3 vec3",
    "#define float4 vec4", "#define int2 ivec2", "#define int3 ivec3", "#define int4 ivec4",
    "#define saturate(x) (clamp(x, 0.0, 1.0))", "#define texSample2D texture",
    "#define texSample2DLod textureLod", "#define log10(x) (log2(x) * 0.301029995663981)",
    "#define atan2 atan", "#define fmod(x, y) ((x)-(y)*trunc((x)/(y)))", "#define ddx dFdx",
    "#define ddy(x) dFdy(-(x))", "#define max(x, y) max(y, x)", "#define GLSL 1", ""]

def lightingV1Stub : Text := linesText
  ["// begin of generated module LightingV1",
    "vec3 PerformLighting_V1(vec3 worldPos, vec3 albedo, vec3 normal, vec3 viewDir,",
    "vec3 specularTint, vec3 baseReflectance, float roughness, float metallic)",
    "\x7b", "return vec3(0.0);", "\x7d", "// end of generated module LightingV1"]

def materialUboBlock : Text := linesText
  ["layout(set = 0, binding = 8, std140) uniform MaterialUniforms \x7b",
    "mat4 g_ModelViewProjectionMatrix_;", "mat4 g_EffectTextureProjectionMatrix_;",
    "vec4 g_TextureResolution_[8];", "vec4 g_Point_[8];", "vec4 g_Color_;",
    "vec4 g_ParallaxPointer_;", "vec4 g_TimeAlphaBrightness_;", "vec4 g_MaterialConstants_[16];",
    "\x7d u_Std;"]

inductive Stage
  | vertex
  | fragment
  deriving DecidableEq, Repr

def stageDefines : Stage → Text
  | .vertex => linesText ["#define attribute in", "#define varying out"]
  | .fragment =>
    linesText ["layout(location = 0) out vec4 out_FragColor;", "#define varying in"]

def requireLine (line : Text) : Text :=
  match stripStart "#require".toList (trimStart line) with
  | none => line
  | some rest =>
    if trim rest = "LightingV1".toList then lightingV1Stub
    else "// unresolved #require ".toList ++ trim rest ++ ['\n']

def resolveRequires (source : Text) : Text := (splitInclusive source).flatMap requireLine

/-- What stands before the combos. -/
def preamble (stage : Stage) (fileLabel : Text) : Text :=
  linesText ["// ======================================================"] ++
    "// Processed shader ".toList ++ fileLabel ++ ['\n'] ++
    linesText ["// ======================================================"] ++
    shaderHeader ++ stageDefines stage ++
    (if stage = .fragment then linesText ["#define main kwe_material_main"] else []) ++
    materialUboBlock

def integerText : Int → Text
  | .ofNat n => decimal n
  | .negSucc n => '-' :: decimal (n + 1)

def defineLine (name : Text) (value : Int) : Text :=
  "#define ".toList ++ name ++ ' ' :: integerText value ++ ['\n']

def comboDefine (combo : Text × Int) : Text := defineLine (toUppercase combo.1) combo.2

/-- What stands after the combos. -/
def postlude (stage : Stage) (folded : Text) : Text :=
  '\n' :: Search.replace "gl_FragColor".toList "out_FragColor".toList folded ++
    if stage = .fragment then
      linesText ["", "#undef main", "void main() \x7b", "    kwe_material_main();",
        "    out_FragColor.rgb *= out_FragColor.a;", "\x7d"]
    else []

/-! ## The pass -/

structure PreprocessOutput where
  source : Text
  combos : Combos
  uniforms : List UniformMeta
  /-- The lines from which the attributes, samplers and unsupported uniforms are read. -/
  folded : FoldState
  referencesRenderTarget : Bool

section Pass

variable (fromStr : Text → Option Json) (files : IncludeLookup)

/-- The source with its includes and modules. -/
def requiredText (source : Text) : Except PreprocessError Text :=
  (resolveIncludes (some maxPreprocessedBytes) files source).1.map resolveRequires

def mergedCombos (required : Text) (materialCombos : Combos) : Combos :=
  mergeCombos materialCombos (scrape fromStr required materialCombos).1

def foldRequired (required : Text) (materialCombos : Combos) (materialConstants : List Text)
    (varyingLocations : List (Text × Nat)) : Except PreprocessError FoldState :=
  foldDeclarations required materialConstants varyingLocations
    (mergedCombos fromStr required materialCombos)
    (uniformMaterialKeys (scrape fromStr required materialCombos).2)

def preprocess (stage : Stage) (fileLabel source : Text) (materialCombos : Combos)
    (materialConstants : List Text) (varyingLocations : List (Text × Nat)) :
    Except PreprocessError PreprocessOutput :=
  match materialCombos.find? fun combo => !isValidComboName combo.1 with
  | some combo => .error (.invalidComboName combo.1)
  | none => do
    let required ← requiredText files source
    let combos := mergedCombos fromStr required materialCombos
    let folded ← foldRequired fromStr required materialCombos materialConstants varyingLocations
    let sourceOut := preamble stage fileLabel ++ combos.flatMap comboDefine ++
      postlude stage folded.source
    if maxPreprocessedBytes < Utf8.size sourceOut then
      .error (.sizeExceeded (Utf8.size sourceOut) maxPreprocessedBytes)
    else
      .ok {
        source := sourceOut
        combos := combos
        uniforms := (scrape fromStr required materialCombos).2
        folded := folded
        referencesRenderTarget := (findFirst "_rt_".toList required).isSome }

end Pass

end Kwe.Shader

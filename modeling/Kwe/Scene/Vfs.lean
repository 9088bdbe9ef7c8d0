import Kwe.Scene.Package

/-!
The confined files of a scene: its package, its own directory, and the shared
assets, looked up in that order.

A directory is the tree of what is below it. A link is a leaf of that tree:
where it leads is read by nothing.
-/

namespace Kwe.Scene

open Foundation Foundation.Checks

/-! ## Trees -/

/-- The bytes of a file; their number is a `u64`. -/
structure FileBytes where
  bytes : List UInt8
  length_lt : bytes.length < 2 ^ 64

inductive Node
  | file (content : FileBytes)
  | dir (children : List (String × Node))
  | symlink
  | other

/-- A canonical path to a directory, and what is in it. -/
structure Root where
  path : List String
  children : List (String × Node)

/-! ## The table of the package -/

def toAsciiLowercase (text : List Char) : List Char := text.map Char.toLower

/-- The path of the entry is the reference, or ends with it after a `/`. -/
def isMatch (reference : String) (e : PkgEntry) : Bool :=
  let needle := toAsciiLowercase reference.toList
  let path := toAsciiLowercase e.path.toList
  path == needle || ('/' :: needle).isSuffixOf path

/-- The indices of the entries a reference matches. -/
def pkgMatches (reference : String) (entries : List PkgEntry) : List Nat :=
  (List.range entries.length).filter fun i => (entries[i]?).any (isMatch reference)

inductive PkgLookupError
  | outside
  | notAnEntry
  | severalEntries (count : Nat)
  deriving DecidableEq, Repr

/-- Components of a path are compared as they are written. -/
local instance lawful_component : LawfulBEq (List Char) := inferInstance

def resolvePkgEntry (reference : String) (entries : List PkgEntry) :
    Except PkgLookupError Nat :=
  if reference.toList.head? = some '/' ∨ '\\' ∈ reference.toList ∨ '\x00' ∈ reference.toList ∨
      ['.', '.'] ∈ reference.toList.splitOn '/' then
    .error .outside
  else
    match pkgMatches reference entries with
    | [] => .error .notAnEntry
    | [idx] => .ok idx
    | several => .error (.severalEntries several.length)

/-! ## Requests and answers -/

inductive AssetCategory
  | texture | shaderText | model | particle | script | json | video
  deriving DecidableEq, Repr

inductive VfsSource
  | pkgEntry | sceneDir | assetsRoot
  deriving DecidableEq, Repr

structure VfsCaps where
  texture : UInt64
  shaderText : UInt64
  model : UInt64
  particle : UInt64
  script : UInt64
  json : UInt64
  videoProbe : UInt64

structure ResolvedAsset where
  logicalId : String
  source : VfsSource
  bytes : List UInt8
  deriving DecidableEq, Repr

structure ResolvedPath where
  logicalId : String
  source : VfsSource
  path : List String
  deriving DecidableEq, Repr

inductive VfsError
  | badReference (reason : String)
  | notFound
  | oversize (category : AssetCategory) (limit : Nat)
  | symlinkRejected
  | notAddressable
  | io (e : PkgError)
  /-- No error of the source: reading an entry added up to more than 64 bits. -/
  | overflow
  deriving DecidableEq, Repr

structure Vfs where
  pkg : Option PkgReader
  sceneRoot : Root
  assetsRoot : Option Root
  caps : VfsCaps

def Vfs.capFor (vfs : Vfs) : AssetCategory → Nat
  | .texture => vfs.caps.texture.toNat
  | .shaderText => vfs.caps.shaderText.toNat
  | .model => vfs.caps.model.toNat
  | .particle => vfs.caps.particle.toNat
  | .script => vfs.caps.script.toNat
  | .json => vfs.caps.json.toNat
  | .video => vfs.caps.videoProbe.toNat

/-! ## References -/

/-- `MAX_REFERENCE_BYTES`. -/
def maxReferenceBytes : Nat := 512

def checkParts : List (List Char) → Except VfsError (List String)
  | [] => .ok []
  | part :: parts =>
    if part = [] then
      .error (.badReference "reference must not contain an empty path component")
    else if part = ['.'] ∨ part = ['.', '.'] then
      .error (.badReference "reference must not contain a \".\" or \"..\" component")
    else do
      let components ← checkParts parts
      .ok (String.ofList part :: components)

def normalizeReference (reference : String) : Except VfsError (List String) :=
  if reference.toList = [] then .error (.badReference "reference must not be empty")
  else if maxReferenceBytes < Utf8.size reference.toList then
    .error (.badReference "reference exceeds the 512 byte length limit")
  else if '\x00' ∈ reference.toList then
    .error (.badReference "reference must not contain a NUL byte")
  else if '\\' ∈ reference.toList then
    .error (.badReference "reference must use forward slashes only")
  else if reference.toList.head? = some '/' then
    .error (.badReference "reference must not be absolute")
  else checkParts (reference.toList.splitOn '/')

/-! ## Directories -/

/-- The walk of `confined_leaf`, to the file at its end. -/
def walk : List (String × Node) → List String → Except VfsError FileBytes
  | _, [] => .error .notFound
  | children, [name] =>
    match children.lookup name with
    | none => .error .notFound
    | some .symlink => .error .symlinkRejected
    | some (.file content) => .ok content
    | some _ => .error .notFound
  | children, name :: next :: rest =>
    match children.lookup name with
    | none => .error .notFound
    | some .symlink => .error .symlinkRejected
    | some (.dir children) => walk children (next :: rest)
    | some _ => .error .notFound

/-- The path and the file of a leaf; a path without links is canonical. -/
def confinedLeaf (root : Root) (components : List String) :
    Except VfsError (List String × FileBytes) := do
  let content ← walk root.children components
  .ok (root.path ++ components, content)

def readLeafBytes (content : FileBytes) (cap : Nat) (category : AssetCategory) :
    Except VfsError (List UInt8) :=
  -- `cap.saturating_add(1)`
  let bytes := content.bytes.take (min (cap + 1) (2 ^ 64 - 1))
  if cap < bytes.length then .error (.oversize category cap) else .ok bytes

/-- One directory's attempt; none if the reference is not there. -/
def resolveInDir {α : Type} (root : Root) (components : List String)
    (answer : List String → FileBytes → Except VfsError α) : Option (Except VfsError α) :=
  match confinedLeaf root components with
  | .ok (leaf, content) => some (answer leaf content)
  | .error .notFound => none
  | .error other => some (.error other)

def resolveBytesInDir (root : Root) (source : VfsSource) (components : List String)
    (logicalId : String) (cap : Nat) (category : AssetCategory) :
    Option (Except VfsError ResolvedAsset) :=
  resolveInDir root components fun _ content =>
    (readLeafBytes content cap category).map fun bytes => ⟨logicalId, source, bytes⟩

def resolvePathInDir (root : Root) (source : VfsSource) (components : List String)
    (logicalId : String) (cap : Nat) (category : AssetCategory) :
    Option (Except VfsError ResolvedPath) :=
  resolveInDir root components fun leaf content =>
    if cap < content.bytes.length then .error (.oversize category cap)
    else .ok ⟨logicalId, source, leaf⟩

/-- The scene directory, then the assets root. -/
def Vfs.tryDirs {α : Type} (vfs : Vfs) (attempt : Root → VfsSource → Option (Except VfsError α)) :
    Except VfsError α :=
  match attempt vfs.sceneRoot .sceneDir with
  | some outcome => outcome
  | none =>
    match vfs.assetsRoot.bind fun root => attempt root .assetsRoot with
    | some outcome => outcome
    | none => .error .notFound

/-! ## The two operations -/

/-- The entry of a reference; what is several entries, or none, is no entry. -/
def Vfs.pkgEntry (vfs : Vfs) (reference : String) : Option (PkgReader × Nat) :=
  vfs.pkg.bind fun reader =>
    match resolvePkgEntry reference reader.entries with
    | .ok idx => some (reader, idx)
    | .error _ => none

def Vfs.resolve (decode : List UInt8 → Decoded) (vfs : Vfs) (reference : String)
    (category : AssetCategory) : Except VfsError ResolvedAsset :=
  if category = .video then
    .error (.badReference "video assets are resolved via resolve_path, not resolve")
  else do
    let components ← normalizeReference reference
    let cap := vfs.capFor category
    match vfs.pkgEntry reference with
    | some (reader, idx) =>
      match readEntryBounded decode reader idx cap with
      | .ok bytes => .ok ⟨reference, .pkgEntry, bytes⟩
      | .error (.error e) =>
        if e.kind = .bounds then .error (.oversize category cap) else .error (.io e)
      | .error .overflow => .error .overflow
    | none =>
      vfs.tryDirs fun root source =>
        resolveBytesInDir root source components reference cap category

def Vfs.resolvePath (vfs : Vfs) (reference : String) (category : AssetCategory) :
    Except VfsError ResolvedPath := do
  let components ← normalizeReference reference
  let cap := vfs.capFor category
  match vfs.pkgEntry reference with
  | some _ => .error .notAddressable
  | none =>
    vfs.tryDirs fun root source => resolvePathInDir root source components reference cap category

end Kwe.Scene

import Kwe.Foundation.Durable
import Kwe.Supervisor.Model

/-!
`atomic_write`, and the two stores of the daemon that write their files with it: the
assignments of wallpapers to outputs, and the permissions of wallpapers.
-/

namespace Kwe.Daemon

open Foundation.Durable Kwe.Supervisor
open Std (ExtTreeMap)

/-! ## Writing a file -/

/-- What `atomic_write` does, in this order. -/
inductive FileOperation
  | ensurePrivateDir | create | write | syncContents | rename | openDirectory | syncDirectory
  deriving DecidableEq, Repr

/-- Only the rename shows in the file. -/
def FileOperation.apply (contents : ByteArray) : FileOperation → Option ByteArray → Option ByteArray
  | .rename, _ => some contents
  | _, file => file

/-- The operations up to the first that fails. -/
def performAll (fails : FileOperation → Bool) (contents : ByteArray) :
    List FileOperation → Option ByteArray → Except FileOperation Unit × Option ByteArray
  | [], file => (.ok (), file)
  | op :: ops, file =>
    if fails op then (.error op, file) else performAll fails contents ops (op.apply contents file)

/-- The operations that leave the file alone or replace it. -/
def untilRename : List FileOperation :=
  [.ensurePrivateDir, .create, .write, .syncContents, .rename]

def afterRename : List FileOperation := [.openDirectory, .syncDirectory]

def atomicWrite (fails : FileOperation → Bool) : Write FileOperation := fun contents =>
  performAll fails contents (untilRename ++ afterRename)

/-- `serde_json::to_vec_pretty` and `serde_json::from_slice`. -/
structure Codec (σ : Type) where
  toVecPretty : σ → ByteArray
  fromSlice : ByteArray → Option σ

/-- What is encoded decodes to itself. -/
def Codec.RoundTrip {σ : Type} (codec : Codec σ) : Prop :=
  ∀ s, codec.fromSlice (codec.toVecPretty s) = some s

/-! ## Assignments -/

def maxAssignedOutputs : Nat := 16

def maxAssignmentBytes : Nat := 1024 * 1024

def maxContentChars : Nat := 4096

def maxImageChars : Nat := 4096

structure PreviousWallpaper where
  wallpaperPlugin : String
  configGroup : List String
  image : Option String
  deriving DecidableEq, Repr

structure Assignment where
  wallpaperId : String
  kind : RendererKind
  content : String
  width : UInt32
  height : UInt32
  fps : UInt32
  scaling : ScalingMode
  capabilityLimitations : List String
  appliedAtUnixSeconds : UInt64
  previous : Option PreviousWallpaper
  deriving DecidableEq, Repr

structure PersistedAssignments where
  schemaVersion : UInt32
  outputs : ExtTreeMap String Assignment

def PersistedAssignments.default : PersistedAssignments := ⟨1, ∅⟩

def validatePrevious (previous : PreviousWallpaper) : Except String Unit := do
  validateIdentityPart "wallpaper_plugin" previous.wallpaperPlugin
  if previous.configGroup = [] ∨ 4 < previous.configGroup.length then
    throw "assignment config_group must be a bounded config group"
  previous.configGroup.forM (validateIdentityPart "config_group")
  if previous.image.any fun image => image.isEmpty || maxImageChars < image.utf8ByteSize then
    throw "assignment image must be a bounded image path"

def validateAssignment (outputName : String) (assignment : Assignment) : Except String Unit := do
  validateIdentityPart "output" outputName
  validateIdentityPart "wallpaper_id" assignment.wallpaperId
  if assignment.kind = .test then
    throw "assignment kind must be video, web, or scene"
  if assignment.content.isEmpty ∨ maxContentChars < assignment.content.utf8ByteSize then
    throw "assignment content must be a bounded content path"
  if assignment.width = 0 ∨ 8192 < assignment.width ∨ assignment.height = 0 ∨
      8192 < assignment.height then
    throw "assignment dimensions must be in 1..=8192"
  if assignment.fps < 1 ∨ 240 < assignment.fps then
    throw "assignment fps must be in 1..=240"
  match assignment.previous with
  | none => pure ()
  | some previous => validatePrevious previous

abbrev AssignmentStore := Store PersistedAssignments

namespace AssignmentStore

/-- The files of the store. -/
def kind (codec : Codec PersistedAssignments) : Kind PersistedAssignments where
  encode := codec.toVecPretty
  decode := codec.fromSlice
  limit := maxAssignmentBytes
  fresh := .default
  check state :=
    state.schemaVersion = 1 && state.outputs.size ≤ maxAssignedOutputs &&
      state.outputs.toList.all fun entry => (validateAssignment entry.1 entry.2).isOk

variable (codec : Codec PersistedAssignments) (fails : FileOperation → Bool)

def openStore (file : Option ByteArray) : AssignmentStore := (kind codec).opened file

def set (output : String) (assignment : Assignment) (store : AssignmentStore) :
    Except (Failure String FileOperation) Unit × AssignmentStore :=
  match validateAssignment output assignment with
  | .error detail => (.error (.refused detail), store)
  | .ok () =>
    if store.memory.outputs.contains output = false ∧
        maxAssignedOutputs ≤ store.memory.outputs.size then
      (.error (.refused "assignment count exceeds the 16 output safety limit"), store)
    else
      (kind codec).commit (atomicWrite fails)
        { store.memory with outputs := store.memory.outputs.insert output assignment } () store

/-- Whether there was a record. -/
def remove (output : String) (store : AssignmentStore) :
    Except (Failure String FileOperation) Bool × AssignmentStore :=
  if store.memory.outputs.contains output then
    (kind codec).commit (atomicWrite fails)
      { store.memory with outputs := store.memory.outputs.erase output } true store
  else (.ok false, store)

end AssignmentStore

/-! ## Permissions -/

def maxGrants : Nat := 256

def maxGrantBytes : Nat := 1024 * 1024

structure Grant where
  network : Bool
  audio : Bool
  pointer : Bool
  deriving DecidableEq, Repr

def Grant.defaults : Grant := ⟨false, false, true⟩

/-- Fields that are given replace their current values. -/
structure GrantPatch where
  network : Option Bool
  audio : Option Bool
  pointer : Option Bool
  deriving DecidableEq, Repr

def GrantPatch.apply (patch : GrantPatch) (current : Grant) : Grant where
  network := patch.network.getD current.network
  audio := patch.audio.getD current.audio
  pointer := patch.pointer.getD current.pointer

structure PersistedGrants where
  schemaVersion : UInt32
  grants : ExtTreeMap String Grant

def PersistedGrants.default : PersistedGrants := ⟨1, ∅⟩

abbrev GrantStore := Store PersistedGrants

namespace GrantStore

def kind (codec : Codec PersistedGrants) : Kind PersistedGrants where
  encode := codec.toVecPretty
  decode := codec.fromSlice
  limit := maxGrantBytes
  fresh := .default
  check state :=
    state.schemaVersion = 1 && state.grants.size ≤ maxGrants &&
      state.grants.toList.all fun entry => (validateIdentityPart "wallpaper_id" entry.1).isOk

/-- The record of a wallpaper, or the default policy. -/
def grant (state : PersistedGrants) (wallpaperId : String) : Grant :=
  state.grants[wallpaperId]?.getD .defaults

variable (codec : Codec PersistedGrants) (fails : FileOperation → Bool)

def openStore (file : Option ByteArray) : GrantStore := (kind codec).opened file

def set (wallpaperId : String) (patch : GrantPatch) (store : GrantStore) :
    Except (Failure String FileOperation) Grant × GrantStore :=
  match validateIdentityPart "wallpaper_id" wallpaperId with
  | .error detail => (.error (.refused detail), store)
  | .ok () =>
    let next := patch.apply (grant store.memory wallpaperId)
    if store.memory.grants.contains wallpaperId = false ∧ maxGrants ≤ store.memory.grants.size then
      (.error (.refused "permission grant count exceeds the 256 safety limit"), store)
    else
      (kind codec).commit (atomicWrite fails)
        { store.memory with grants := store.memory.grants.insert wallpaperId next } next store

end GrantStore

end Kwe.Daemon

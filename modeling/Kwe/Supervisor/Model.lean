import Mathlib

/-!
The data of the renderer supervisor: what a renderer is asked to show
(`StartSpec`), the failure records that decide quarantine, the worker slots,
and what the world answers to one call of a handler (`Io`).

Time is a number of milliseconds.  Counters that saturate or wrap in the
source do so here, at the same width.
-/

namespace Kwe.Supervisor

/-- `MAX_RECORDS`. -/
def maxRecords : Nat := 256

/-- `SNAPSHOT_INTERVAL`, in milliseconds. -/
def snapshotInterval : Nat := 30000

/-- `RESIDENT_CHECK_INTERVAL`, in milliseconds. -/
def residentCheckInterval : Nat := 1000

/-- `MACOS_RESIDENT_BUDGET_MIB`. -/
def macosResidentBudgetMib : Nat := 2048

/-- `u64::saturating_add(1)`. -/
def saturatingSucc64 (n : Nat) : Nat := min (n + 1) (2 ^ 64 - 1)

/-- `u32::saturating_add(1)`. -/
def saturatingSucc32 (n : Nat) : Nat := min (n + 1) (2 ^ 32 - 1)

/-! ## Identities -/

inductive RendererKind
  | test | video | web | scene
  deriving DecidableEq, Repr

def RendererKind.asStr : RendererKind → String
  | .test => "test"
  | .video => "video"
  | .web => "web"
  | .scene => "scene"

inductive ScalingMode
  | aspect | fill | stretch
  deriving DecidableEq, Repr

inductive ContentSpec
  | video (path : String)
  | web (root : String)
  | scene (path : String)
  deriving DecidableEq, Repr

def identityChar (c : Char) : Bool := c.isAlphanum || c = '.' || c = '_' || c = '-'

/-- The test inside `validate_identity_part`. -/
def identityPart (value : String) : Bool :=
  !value.isEmpty && decide (value.utf8ByteSize ≤ 128) && value.toList.all identityChar

def validateIdentityPart (name value : String) : Except String Unit :=
  if identityPart value then .ok ()
  else .error (name ++ " must be 1..=128 ASCII letters, digits, '.', '_', or '-'")

/-- A validated request to show a wallpaper.  The supervisor only ever sees
specs whose identity parts passed `validate_identity_part`. -/
structure StartSpec where
  wallpaperId : String
  contentHash : String
  width : Nat
  height : Nat
  fps : Nat
  kind : RendererKind
  content : Option ContentSpec
  scaling : ScalingMode
  capabilityLimitations : List String
  wallpaperId_ok : identityPart wallpaperId = true
  contentHash_ok : identityPart contentHash = true
  deriving DecidableEq

/-- The kind-qualified key of the failure record. -/
def StartSpec.identity (spec : StartSpec) : String :=
  spec.wallpaperId ++ ":" ++ spec.contentHash ++ ":" ++ spec.kind.asStr

/-- The key of records written before keys carried the kind. -/
def StartSpec.legacyIdentity (spec : StartSpec) : String :=
  spec.wallpaperId ++ ":" ++ spec.contentHash

/-! ## Failure records -/

inductive FailureKind
  | startupTimeout | frameTimeout | invalidFrame | processExit | launchFailed
  | resourceLimit | refused
  deriving DecidableEq, Repr

structure FailureRecord where
  wallpaperId : String
  contentHash : String
  failures : Nat
  quarantined : Bool
  lastFailure : FailureKind
  lastDetail : String
  updatedUnixSeconds : Nat
  deriving DecidableEq, Repr

structure LastGoodRecord where
  wallpaperId : String
  contentHash : String
  width : Nat
  height : Nat
  sequence : Nat
  file : String
  updatedUnixSeconds : Nat
  deriving DecidableEq, Repr

abbrev Records := Std.TreeMap String FailureRecord

structure PersistedState where
  forcedKillCount : Nat
  records : Records
  lastGood : Option LastGoodRecord
  buildId : Option String

def PersistedState.empty : PersistedState :=
  ⟨0, ∅, none, none⟩

/-- The record a lookup for `spec` finds: its own, else the legacy one. -/
def Records.lookup (records : Records) (spec : StartSpec) : Option FailureRecord :=
  records[spec.identity]?.or records[spec.legacyIdentity]?

/-- The victim of an eviction: the first record, in key order, with the
smallest `updated_unix_seconds`. -/
def Records.oldest (records : Records) : Option String :=
  (records.toList.argmin fun entry => entry.2.updatedUnixSeconds).map Prod.fst

/-- Moves a legacy record to the kind-qualified key, or drops it when that key
has a record already. -/
def Records.migrate (records : Records) (spec : StartSpec) : Records :=
  match records[spec.legacyIdentity]? with
  | none => records
  | some record =>
    let rest := records.erase spec.legacyIdentity
    if spec.identity ∈ rest then rest else rest.insert spec.identity record

/-- The record, if any, that has to make room for a new record of `spec`. -/
def Records.victim (records : Records) (spec : StartSpec) : Option String :=
  if spec.identity ∉ records ∧ maxRecords ≤ records.size then records.oldest else none

def Records.evict (records : Records) (spec : StartSpec) : Records :=
  match records.victim spec with
  | none => records
  | some oldest => records.erase oldest

/-! ## Workers -/

inductive PointerPhase
  | enter | move | leave | down | up
  deriving DecidableEq, Repr

inductive PointerButton
  | primary | secondary | middle
  deriving DecidableEq, Repr

structure PointerMessage where
  sequence : Nat
  phase : PointerPhase
  x : Nat
  y : Nat
  button : Option PointerButton
  deriving DecidableEq, Repr

/-- One line on a worker's control pipe. -/
inductive ControlLine
  | pointer (message : PointerMessage)
  | audio (bytes : List UInt8)
  | media (bytes : List UInt8)
  deriving DecidableEq, Repr

/-- `ActiveWorker`.  `child` names the process: every launch gets a new one. -/
structure Worker where
  spec : StartSpec
  child : Nat
  launch : Nat
  reader : Bool
  started : Nat
  lastProgress : Nat
  lastResidentCheck : Nat
  lastSnapshotSaved : Option Nat
  sequence : Nat
  inputSequence : Nat
  pendingInput : Option ControlLine
  inputCoalesced : Nat
  inputProtocolErrors : Nat
  pointerInside : Bool
  pointerX : Nat
  pointerY : Nat
  pendingAudio : Option ControlLine
  audioCoalesced : Nat
  pendingMedia : Option ControlLine
  mediaCoalesced : Nat
  deriving DecidableEq

structure FrameSnapshot where
  width : Nat
  height : Nat
  sequence : Nat
  deriving DecidableEq, Repr

structure PendingRestart where
  spec : StartSpec
  at_ : Nat
  deriving DecidableEq

structure RetiredWorker where
  worker : Worker
  generation : Nat
  deadline : Nat
  promotionSnapshot : FrameSnapshot
  deriving DecidableEq

inductive WorkerPhase
  | idle | starting | canary | live | restarting | awaitingAck | rolledBack | stopped | quarantined
  deriving DecidableEq, Repr

/-! ## The supervisor -/

/-- `SupervisorConfig`, with the bounds `validate` enforces. -/
structure Config where
  restartDelay : Nat
  canaryDuration : Nat
  handoffTimeout : Nat
  frameTimeout : Nat
  startupTimeout : RendererKind → Nat
  addressSpaceMib : RendererKind → Nat
  /-- `kwe_platform::address_space_limit_enforced()`. -/
  addressSpaceLimitEnforced : Bool
  maxFailures : Nat
  maxFailures_pos : 0 < maxFailures
  maxFailures_le : maxFailures ≤ 10

/-- What a step makes happen: a launch, a refusal, a record evicted or cleared,
a new display generation. -/
inductive Event
  | spawned (spec : StartSpec)
  | refused (spec : StartSpec)
  | evicted (key : String)
  | cleared (spec : StartSpec)
  | advanced (previous : Nat)
  deriving DecidableEq

/-- The worker slots of `SupervisorRuntime` and what is said about them.
`children` counts the processes launched. -/
@[ext] structure Slots where
  active : Option Worker
  candidate : Option Worker
  retired : Option RetiredWorker
  pending : Option PendingRestart
  requested : Option StartSpec
  phase : WorkerPhase
  displayGeneration : Nat
  children : Nat

def Slots.new : Slots where
  active := none
  candidate := none
  retired := none
  pending := none
  requested := none
  phase := .idle
  displayGeneration := 0
  children := 0

/-- `RolledBack` over an active worker, else the phase that has none. -/
def Slots.rolledBackOr (idlePhase : WorkerPhase) (s : Slots) : WorkerPhase :=
  if s.active.isSome then .rolledBack else idlePhase

/-- `Canary` beside an active worker, `Starting` without one. -/
def Slots.launchPhase (s : Slots) : WorkerPhase :=
  if s.active.isSome then .canary else .starting

/-- `wrapping_add(1).max(1)` on the display generation. -/
def nextGeneration (generation : Nat) : Nat := max ((generation + 1) % 2 ^ 64) 1

/-- `SupervisorRuntime`.  `disk` is what `supervisor-v1.json` holds, `events`
what the step in progress has done. -/
structure State extends Slots where
  persisted : PersistedState
  disk : PersistedState
  audioGrantDropped : Nat
  restartCount : Nat
  lastFailure : Option (FailureKind × String)
  launchSerial : Nat
  events : List Event

/-- `SupervisorRuntime::new`. -/
def State.new (persisted : PersistedState) : State where
  toSlots := .new
  persisted := persisted
  disk := persisted
  audioGrantDropped := 0
  restartCount := 0
  lastFailure := none
  launchSerial := 0
  events := []

/-- `WorkerStatus`, as far as the daemon's own code reads it. -/
structure WorkerStatus where
  phase : WorkerPhase
  kind : RendererKind
  wallpaperId : Option String
  contentHash : Option String
  sequence : Nat
  failures : Nat
  restartCount : Nat
  forcedKillCount : Nat
  lastFailure : Option FailureKind
  lastFailureDetail : Option String
  quarantined : Bool
  scaling : ScalingMode
  requestedWallpaperId : Option String
  requestedContentHash : Option String
  candidateSequence : Nat
  displayGeneration : Nat
  awaitingDisplayAck : Bool
  inputSequence : Nat
  inputPending : Bool
  pointerInside : Bool
  audioGrantDropped : Nat
  capabilityLimitations : List String
  deriving DecidableEq, Repr

def status (s : State) : WorkerStatus :=
  let record := s.requested.bind s.persisted.records.lookup
  { phase := s.phase
    kind := ((s.active.map fun w => w.spec.kind).or (s.requested.map fun r => r.kind)).getD .test
    wallpaperId := s.active.map fun w => w.spec.wallpaperId
    contentHash := s.active.map fun w => w.spec.contentHash
    sequence := (s.active.map fun w => w.sequence).getD 0
    failures := (record.map fun r => r.failures).getD 0
    restartCount := s.restartCount
    forcedKillCount := s.persisted.forcedKillCount
    lastFailure := s.lastFailure.map Prod.fst
    lastFailureDetail := s.lastFailure.map Prod.snd
    quarantined := (record.map fun r => r.quarantined).getD false
    scaling :=
      ((s.active.map fun w => w.spec.scaling).or (s.requested.map fun r => r.scaling)).getD .aspect
    requestedWallpaperId := s.requested.map fun r => r.wallpaperId
    requestedContentHash := s.requested.map fun r => r.contentHash
    candidateSequence := (s.candidate.map fun w => w.sequence).getD 0
    displayGeneration := s.displayGeneration
    awaitingDisplayAck := s.retired.isSome
    inputSequence := (s.active.map fun w => w.inputSequence).getD 0
    inputPending := (s.active.map fun w => w.pendingInput.isSome).getD false
    pointerInside := (s.active.map fun w => w.pointerInside).getD false
    audioGrantDropped := s.audioGrantDropped
    capabilityLimitations :=
      ((s.active.map fun w => w.spec.capabilityLimitations).or
        (s.requested.map fun r => r.capabilityLimitations)).getD [] }

/-! ## What the world answers -/

/-- The answers to the calls one handler makes, in program order: readings of
the clock, the launch of a process, the writes of the state store, and whether
a worker had to be killed. -/
structure Io where
  clock : Nat → Nat
  unixSeconds : Nat
  spawn : Except String Unit
  saveLastGood : Except String Unit
  save : Nat → Except String Unit
  forced : Nat → Bool

/-- Every call succeeds, at time `now`. -/
def Io.quiet (now : Nat) : Io where
  clock := fun _ => now
  unixSeconds := now / 1000
  spawn := .ok ()
  saveLastGood := .ok ()
  save := fun _ => .ok ()
  forced := fun _ => false

inductive ExitStatus
  | code (n : Int)
  | signal (n : Nat)
  | unknown
  deriving DecidableEq, Repr

inductive ChildState
  | running
  | exited (status : ExitStatus)
  | waitError (detail : String)
  deriving DecidableEq, Repr

inductive SnapshotResult
  | frame (snapshot : FrameSnapshot)
  | busy
  | error (detail : String)
  deriving DecidableEq, Repr

/-- What `inspect_worker` finds when it looks at a worker. -/
structure Probe where
  now : Nat
  child : ChildState
  /-- The lines of the diagnostics ring after the drain. -/
  stderrTail : List String
  /-- The resident bytes of the process tree, when they could be read. -/
  resident : Option Nat
  /-- Whether the frame file can be opened. -/
  opens : Bool
  snapshot : SnapshotResult
  deriving DecidableEq, Repr

end Kwe.Supervisor

import Kwe.Playlists.Session
import Kwe.Supervisor.Model

/-!
The playlist session and its apply worker, two processes that pass messages:
the session hands requests to a queue of capacity one, the worker takes one,
runs the apply transaction and posts the outcome to a second queue of capacity
one, and a later tick of the session folds it.

A tick and a command are single steps: the session reads the queues once, at
the top of a tick, and offers at most one request, at its end.  What a user's
apply does reaches the session in the supervisor's status and in the outcomes,
which are free.  A run ends where the session is shut down.
-/

namespace Kwe.Playlists

open Kwe.Supervisor (WorkerPhase WorkerStatus)

/-- `APPLY_QUEUE_CAPACITY`, of either queue. -/
def applyQueueCapacity : Nat := 1

/-- `APPLY_BACKOFF_BASE`, in milliseconds. -/
def applyBackoffBase : Nat := 1000

/-- `APPLY_BACKOFF_MAX`, in milliseconds. -/
def applyBackoffMax : Nat := 30 * 1000

/-! ## Messages -/

inductive ApplyError
  | invalid (detail : String)
  | unknownWallpaper (detail : String)
  | incompatible (detail : String)
  | outputMissing (detail : String)
  | busy
  | yielded (detail : String)
  | shellUnreachable (detail : String)
  | displayUnavailable (detail : String)
  | transaction (detail : String)
  | quarantined (detail : String)
  | restoreFailed (detail : String)
  | capabilityGate (detail : String) (missing : List String) (inspectionReason : Option String)
  deriving DecidableEq, Repr

structure ApplyRequest where
  output : Option String
  wallpaperId : String
  playlistEntries : List String
  applied : Option String
  deriving DecidableEq, Repr

/-- The value of a completed apply is not read by the session. -/
structure ApplyOutcome where
  wallpaperId : String
  result : Except ApplyError Unit

/-- The wallpaper that the capability gate refused. -/
def ApplyOutcome.refused (outcome : ApplyOutcome) : Option String :=
  match outcome.result with
  | .error (.capabilityGate ..) => some outcome.wallpaperId
  | _ => none

/-! ## The verdict -/

def decisionWallpaperId : PlaylistDecision → Option String
  | .started id .. | .waiting id .. | .advanced id .. | .paused id .. => some id
  | .exhausted | .noEligible => none

def phaseHasLiveWorker : WorkerPhase → Bool
  | .starting | .canary | .live | .awaitingAck | .restarting | .rolledBack => true
  | .idle | .stopped | .quarantined => false

inductive ApplyVerdict
  | satisfied | yield | hold | wait | apply
  deriving DecidableEq, Repr

def applyVerdict (applied : Option String) (desired : String) (status : WorkerStatus)
    (retryReady : Bool) : ApplyVerdict :=
  if status.requestedWallpaperId = some desired && phaseHasLiveWorker status.phase then
    if (status.phase = .rolledBack || status.phase = .restarting) &&
        decide (status.wallpaperId ≠ some desired) then .wait
    else .satisfied
  else if phaseHasLiveWorker status.phase then
    if status.requestedWallpaperId = applied then if retryReady then .apply else .hold
    else .yield
  else if retryReady then .apply else .hold

def applyBackoff (failures : Nat) : Nat :=
  min (applyBackoffBase * 2 ^ min (failures - 1) 5) applyBackoffMax

/-! ## The session and its worker -/

/-- The fields of `SessionRuntime` that only the apply lane reads. -/
structure ApplyState where
  appliedWallpaper : Option String
  applyFailures : Nat
  nextApplyRetry : Nat
  applyInFlight : Bool
  lastStatusError : Option String
  deriving DecidableEq, Repr

/-- What the code does not keep: the wallpapers dispatched and the outcomes
folded so far, in order, and how many were dispatched before `reset_apply`
last ran. -/
structure Ledger where
  dispatched : List String
  folded : List ApplyOutcome
  reset : Nat

structure ApplySystem where
  session : SessionRuntime
  apply : ApplyState
  requests : List ApplyRequest
  /-- The request whose transaction the worker runs. -/
  working : Option ApplyRequest
  completions : List ApplyOutcome
  ledger : Ledger

/-- The output of the session, and whether it has an apply lane. -/
structure LaneConfig where
  output : Option String
  lane : Bool
  deriving DecidableEq, Repr

/-- Whether `activate_playlist` calls `reset_apply`. -/
def SessionRuntime.startsAfresh (s : SessionRuntime) : Option String → Bool
  | none => s.storeError.isNone
  | some id => s.storeError.isNone && (s.find id).isSome && decide (s.active ≠ some id)

/-- The active playlist is not among the definitions any more. -/
def SessionRuntime.activeGone (s : SessionRuntime) : Bool :=
  match s.active with
  | none => false
  | some id => (s.find id).isNone

namespace ApplySystem

def resetBackoff (elapsed : Nat) (s : ApplySystem) : ApplySystem :=
  { s with apply := { s.apply with applyFailures := 0, nextApplyRetry := elapsed } }

def setApplied (id : Option String) (s : ApplySystem) : ApplySystem :=
  { s with apply := { s.apply with appliedWallpaper := id } }

def yieldToForeign (elapsed : Nat) (s : ApplySystem) : ApplySystem :=
  (s.setApplied none).resetBackoff elapsed

def resetApply (elapsed : Nat) (s : ApplySystem) : ApplySystem :=
  let s := (s.setApplied none).resetBackoff elapsed
  { s with
    session := s.session.resetApply
    ledger := { s.ledger with reset := s.ledger.dispatched.length } }

/-- One turn of the loop of `fold_apply_completions`. -/
def foldOutcome (elapsed : Nat) (s : ApplySystem) (outcome : ApplyOutcome) : ApplySystem :=
  let s := { s with
    apply := { s.apply with applyInFlight := false }
    ledger := { s.ledger with folded := s.ledger.folded ++ [outcome] } }
  match outcome.result with
  | .ok _ => (s.setApplied (some outcome.wallpaperId)).resetBackoff elapsed
  | .error .busy => s.yieldToForeign elapsed
  | .error (.yielded _) => s.yieldToForeign elapsed
  | .error (.capabilityGate ..) =>
    { s with session := { s.session with
        gateRefusedIds := outcome.wallpaperId :: s.session.gateRefusedIds } }
  | .error _ =>
    let failures := min (s.apply.applyFailures + 1) (2 ^ 32 - 1)
    { s with apply := { s.apply with
        applyFailures := failures
        nextApplyRetry := elapsed + applyBackoff failures } }

def foldApplyCompletions (elapsed : Nat) (s : ApplySystem) : ApplySystem :=
  { s.completions.foldl (foldOutcome elapsed) s with completions := [] }

def dispatchApply (config : LaneConfig) (id : String) (entries : List String) (s : ApplySystem) :
    ApplySystem :=
  if !config.lane then s
  else
    let request : ApplyRequest :=
      { output := config.output
        wallpaperId := id
        playlistEntries := entries
        applied := s.apply.appliedWallpaper }
    -- A full queue refuses the request.
    if s.requests.length < applyQueueCapacity then
      { s with
        requests := s.requests ++ [request]
        apply := { s.apply with applyInFlight := true }
        ledger := { s.ledger with dispatched := s.ledger.dispatched ++ [id] } }
    else s

/-- `status` is the supervisor's answer, when the session has a supervisor. -/
def maybeApply (config : LaneConfig) (elapsed : Nat)
    (status : Option (Except String WorkerStatus)) (playlist : Playlist)
    (decision : PlaylistDecision) (s : ApplySystem) : ApplySystem :=
  match decisionWallpaperId decision with
  | none => s
  | some id =>
    match status with
    | none => s
    | some (.error detail) => { s with apply := { s.apply with lastStatusError := some detail } }
    | some (.ok status) =>
      let s := { s with apply := { s.apply with lastStatusError := none } }
      let retryReady := decide (s.apply.nextApplyRetry ≤ elapsed)
      match applyVerdict s.apply.appliedWallpaper id status retryReady with
      | .satisfied => (s.setApplied (some id)).resetBackoff elapsed
      | .yield => s.yieldToForeign elapsed
      | .hold => s
      | .wait => s
      | .apply =>
        if s.apply.applyInFlight then s
        else s.dispatchApply config id playlist.entries

section Codec

variable (codec : Codec) (config : LaneConfig)

/-- What `tick_session` does once the outcomes are folded. -/
def tickFolded (elapsed : Nat) (status : Option (Except String WorkerStatus))
    (s : ApplySystem) : ApplySystem :=
  match s.session.active with
  | none => s
  | some id =>
    match s.session.find id with
    | none =>
      let s := { s with session := { s.session with active := none, lastDecision := none } }
      let s := s.resetApply elapsed
      { s with session := (s.session.persistState codec).1 }
    | some playlist =>
      let now := s.session.nowMs elapsed
      let ticked :=
        (s.session.runtimeOf id).tick playlist now (s.session.unavailableFor playlist)
      let s := { s with session := s.session.setRuntime id ticked.2 }
      match ticked.1 with
      | .error _ => s
      | .ok decision =>
        let s := { s with session := (s.session.maybePersist codec elapsed id decision now).1 }
        s.maybeApply config elapsed status playlist decision

def tickSession (elapsed : Nat) (quarantined : Option (List String))
    (status : Option (Except String WorkerStatus)) (s : ApplySystem) : ApplySystem :=
  let s := { s with session := s.session.refresh quarantined none }
  (s.foldApplyCompletions elapsed).tickFolded codec config elapsed status

/-- `activate_playlist`: what it does to the session, and the `reset_apply` on
its way. -/
def activatePlaylist (elapsed : Nat) (id : Option String) (s : ApplySystem) : ApplySystem :=
  let activated := { s with session := (s.session.activatePlaylist codec elapsed id).session }
  if s.session.startsAfresh id then activated.resetApply elapsed else activated

/-- `requests.recv()` of the worker. -/
def take (s : ApplySystem) : ApplySystem :=
  match s.working, s.requests with
  | none, request :: requests => { s with working := some request, requests := requests }
  | _, _ => s

/-- The transaction ends and its outcome is posted; `send` waits for room. -/
def finish (result : Except ApplyError Unit) (s : ApplySystem) : ApplySystem :=
  match s.working with
  | none => s
  | some request =>
    if s.completions.length < applyQueueCapacity then
      { s with working := none, completions := s.completions ++ [⟨request.wallpaperId, result⟩] }
    else s

/-- A step of the session or of the worker. -/
inductive Action
  | put (playlist : Playlist)
  | remove (id : String)
  | activate (id : Option String)
  | importPlaylists (legacy : List ImportPlaylist)
  | debugClockSkip (ms : Nat)
  | availability (validIds : List String)
  /-- A tick, with the supervisor's answers to it. -/
  | tick (quarantined : Option (List String)) (status : Option (Except String WorkerStatus))
  | take
  | finish (result : Except ApplyError Unit)

/-- A step, the clock it is taken at, and the outcome of writing the
definitions. -/
structure LaneEvent where
  action : Action
  elapsed : Nat
  stored : Except String Unit

def step (s : ApplySystem) (e : LaneEvent) : ApplySystem :=
  match e.action with
  | .put playlist => { s with session := (s.session.putPlaylist e.stored playlist).session }
  | .remove id => { s with session := (s.session.removePlaylist codec e.stored id).session }
  | .activate id => s.activatePlaylist codec e.elapsed id
  | .importPlaylists legacy =>
    { s with session := (s.session.importPlaylists e.stored legacy).session }
  | .debugClockSkip ms => { s with session := (s.session.debugClockSkip e.elapsed ms).session }
  | .availability validIds => { s with session := { s.session with validIds := validIds } }
  | .tick quarantined status => s.tickSession codec config e.elapsed quarantined status
  | .take => s.take
  | .finish result => s.finish result

end Codec

/-- The session of a daemon that starts at `elapsed`, and its idle worker. -/
def new (validIds : List String) (elapsed : Nat) (definitions : Except String (List Playlist))
    (loaded : LoadedState) : ApplySystem where
  session := .new validIds elapsed definitions loaded
  apply :=
    { appliedWallpaper := none
      applyFailures := 0
      nextApplyRetry := elapsed
      applyInFlight := false
      lastStatusError := none }
  requests := []
  working := none
  completions := []
  ledger := ⟨[], [], 0⟩

end ApplySystem

end Kwe.Playlists

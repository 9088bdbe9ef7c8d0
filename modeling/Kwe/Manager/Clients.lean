import Kwe.Foundation.Json
import Kwe.Supervisor.Model

/-!
The clients of the manager that ask the daemon about permissions and playlists:
one request at a time, a bounded queue behind it, and a timer that tries again.

What the callbacks do is part of the request: a callback may issue further
operations, through the signals it emits, and may put the client into the error
state.
-/

namespace Kwe.Manager

open Foundation Kwe.Supervisor

/-- `MaxQueuedOperations`. -/
def maxQueuedOperations : Nat := 64

def initialRetryMilliseconds : Nat := 5000

def maximumRetryMilliseconds : Nat := 30000

inductive Kind
  | permissions
  | playlists
  deriving DecidableEq, Repr

inductive State
  | disconnected | loading | ready | error
  deriving DecidableEq, Repr

structure Request where
  method : String
  params : Json

/-- What a caller or a callback does to the client. -/
inductive Action
  /-- `send`, with what the callback of the operation does when it is told of a
  success and of a failure. -/
  | issue (request : Request) (onOk onError : List Action)
  /-- `setState(Error, …)`. -/
  | setError

/-- An operation with the number of operations issued before it. -/
structure Pending where
  serial : Nat
  request : Request
  onOk : List Action
  onError : List Action

/-- A client, and what has happened so far: the operations issued, the requests
begun and answered, in order, and the callbacks run.  A callback that is not
there throws. -/
structure Client where
  state : State
  current : Option Pending
  /-- There is a connection, or one is being made. -/
  connected : Bool
  queue : List Pending
  retryActive : Bool
  retryDelay : Nat
  issued : Nat
  begun : List Nat
  answered : List Nat
  called : List Nat
  threw : Bool

namespace Client

def new : Client where
  state := .disconnected
  current := none
  connected := false
  queue := []
  retryActive := false
  retryDelay := initialRetryMilliseconds
  issued := 0
  begun := []
  answered := []
  called := []
  threw := false

def setState (c : Client) (state : State) : Client :=
  { c with
    state := state
    retryDelay := if state = .ready then initialRetryMilliseconds else c.retryDelay }

/-- The connection of an earlier request is aborted. -/
def begin (c : Client) (pending : Pending) : Client :=
  { { c with current := some pending }.setState .loading with
    connected := true
    begun := c.begun ++ [pending.serial] }

def retryLater (c : Client) : Client :=
  if c.retryActive then c
  else { c with
    retryActive := true
    retryDelay := min (c.retryDelay * 2) maximumRetryMilliseconds }

def drainQueue (c : Client) : Client :=
  match c.queue with
  | [] => c
  | next :: queue => { c with queue := queue }.begin next

end Client

mutual

def act : Action → Client → Client
  | .setError, c => c.setState .error
  | .issue request onOk onError, c =>
    let pending : Pending := ⟨c.issued, request, onOk, onError⟩
    let c := { c with issued := c.issued + 1 }
    if c.state = .loading then
      if maxQueuedOperations ≤ c.queue.length then
        actAll onError { c with called := c.called ++ [pending.serial] }
      else { c with queue := c.queue ++ [pending] }
    else c.begin pending

def actAll : List Action → Client → Client
  | [], c => c
  | action :: actions, c => actAll actions (act action c)

end

namespace Client

/-- The callback of an operation that is neither current nor queued any more. -/
def callback (c : Client) (pending : Pending) (ok : Bool) : Client :=
  actAll (if ok then pending.onOk else pending.onError)
    { c with called := c.called ++ [pending.serial] }

/-- Room for one more operation at the front of the queue. -/
def makeRoom (kind : Kind) (c : Client) : Client :=
  if c.queue.length < maxQueuedOperations then c
  else match kind, c.queue.getLast? with
  | .permissions, some dropped => { c with queue := c.queue.dropLast }.callback dropped false
  | _, _ => { c with queue := c.queue.dropLast }

def failCurrent (kind : Kind) (c : Client) : Client :=
  let c := { c with connected := false }
  match c.current with
  | none => (c.setState .error).retryLater
  | some _ =>
    let c := c.makeRoom kind
    (({ c with queue := c.current.toList ++ c.queue, current := none }).setState .error).retryLater

/-- A reply that is a JSON object. -/
def consumeResponse (c : Client) (ok : Bool) : Client :=
  let c := { c with connected := false }
  match c.current with
  | none => { c with threw := true }
  | some pending =>
    (({ { c with current := none }.setState .ready with
      answered := c.answered ++ [pending.serial] }).callback pending ok).drainQueue

def retryTimeout (c : Client) : Client :=
  let c := { c with retryActive := false }
  if c.state = .loading then c else c.drainQueue

end Client

/-! ## Runs -/

inductive Event
  /-- The manager calls the client. -/
  | call (actions : List Action)
  | connectionError
  | oversizedReply
  | invalidReply
  | reply (ok : Bool)
  | retryTimeout

def Client.step (kind : Kind) (c : Client) : Event → Client
  | .call actions => actAll actions c
  | .connectionError => c.failCurrent kind
  | .oversizedReply | .invalidReply => if c.connected then c.failCurrent kind else c
  | .reply ok => if c.connected then c.consumeResponse ok else c
  | .retryTimeout => if c.retryActive then c.retryTimeout else c

/-! ## The operations -/

/-- What the listeners to the signals of a callback do: those that hear of the
result, of the pending flag, and of the state. -/
structure Listeners where
  result : List Action
  pending : List Action
  state : List Action

namespace PermissionsClient

def validPermission (permission : String) : Bool :=
  permission = "network" || permission = "audio" || permission = "pointer"

def issue (method : String) (params : Json) (listeners : Listeners) : Action :=
  .issue ⟨method, params⟩ (listeners.result ++ listeners.pending)
    (listeners.pending ++ .setError :: listeners.state)

def requestPermissions (wallpaperId : String) (listeners : Listeners) : List Action :=
  if identityPart wallpaperId then
    [issue "permissions.get" (.object [("wallpaper_id", .string wallpaperId)]) listeners]
  else []

def setPermission (wallpaperId permission : String) (granted : Bool) (listeners : Listeners) :
    List Action :=
  if identityPart wallpaperId ∧ validPermission permission then
    [issue "permissions.set"
      (.object [("wallpaper_id", .string wallpaperId), (permission, .bool granted)]) listeners]
  else .setError :: listeners.state

end PermissionsClient

namespace PlaylistClient

def refresh (listeners : Listeners) : List Action :=
  [.issue ⟨"playlist.list", .object []⟩ listeners.result (.setError :: listeners.state)]

/-- An operation whose callback emits one signal, on success and on failure. -/
def edit (method : String) (params : Json) (listeners : Listeners) : List Action :=
  [.issue ⟨method, params⟩ listeners.result listeners.result]

def importLegacy (playlists : List Json) : Listeners → List Action :=
  edit "playlist.import" (.object [("playlists", .array playlists)])

def putPlaylist (playlist : Json) : Listeners → List Action :=
  edit "playlist.put" (.object [("playlist", playlist)])

def removePlaylist (id : String) : Listeners → List Action :=
  edit "playlist.remove" (.object [("id", .string id)])

end PlaylistClient

end Kwe.Manager

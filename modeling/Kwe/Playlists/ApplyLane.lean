import Kwe.Playlists.ApplyWorker
import Kwe.Supervisor.Handlers

/-!
The apply lane of the playlist session beside everything else that commands
the supervisor: the user's `wallpaper.apply`, which holds the apply lock for
the time of its transaction, and the commands that take no lock
(`renderer.start`, `renderer.retry` and the rest), which go straight to the
supervisor.

What the holder of the lock sends waits in the supervisor's queue until it is
served; its sender may have given up by then.  A reading of the status is one
step, at the moment it is answered.  A command without the lock, and a check of
a tick, is a step of its own.
-/

namespace Kwe.Playlists

open Kwe.Supervisor (Config Io StartSpec WorkerPhase WorkerStatus status)

/-- A live worker whose request is neither the desired wallpaper nor the
session's own. -/
def foreignRendererLive (status : WorkerStatus) (desired : String) (applied : Option String) :
    Bool :=
  phaseHasLiveWorker status.phase && decide (status.requestedWallpaperId ≠ some desired) &&
    decide (status.requestedWallpaperId ≠ applied)

/-- Whether the supervisor is asked for what this transaction started. -/
def ours (status : WorkerStatus) (spec : StartSpec) : Bool :=
  decide (status.requestedWallpaperId = some spec.wallpaperId) &&
    decide (status.requestedContentHash = some spec.contentHash)

/-! ## Commands -/

/-- A start that the lane sent, for which request, and whether the lane had
read the status before. -/
structure LaneStart where
  serial : Nat
  request : ApplyRequest
  spec : StartSpec
  answered : Bool
  deriving DecidableEq

/-- What a user's transaction sends. -/
inductive UserCommand
  | start (spec : StartSpec)
  | retry (spec : StartSpec)
  | stop
  deriving DecidableEq

/-- A command in the supervisor's queue. -/
inductive Command
  | status (serial : Nat)
  | start (sent : LaneStart)
  | stop
  | user (command : UserCommand)
  deriving DecidableEq

def UserCommand.input (io : Io) : UserCommand → Supervisor.Input
  | .start spec => .start spec io
  | .retry spec => .retry spec io
  | .stop => .stop io

/-- What a command asks of the supervisor. -/
def Command.input (io : Io) : Command → Option Supervisor.Input
  | .status _ => none
  | .start sent => some (.start sent.spec io)
  | .stop => some (.stop io)
  | .user command => some (command.input io)

/-! ## The transaction -/

inductive Party
  | playlist | user
  deriving DecidableEq, Repr

/-- Where the worker is in `apply_playlist`. -/
inductive Stage
  | ready
  | locked (request : ApplyRequest)
  | reading (serial : Nat) (request : ApplyRequest)
  | checked (answered : Bool) (request : ApplyRequest)
  | starting (serial : Nat) (request : ApplyRequest) (spec : StartSpec)
  | promoting (request : ApplyRequest) (spec : StartSpec)
  | confirmed (request : ApplyRequest) (spec : StartSpec)
  | failing (request : ApplyRequest) (spec : StartSpec) (error : ApplyError)
  | stopping (request : ApplyRequest) (error : ApplyError)
  | done (request : ApplyRequest) (result : Except ApplyError Unit)

/-- `applied` are the wallpapers of the transactions that succeeded; the code
does not keep them. -/
structure LaneSystem where
  supervisor : Supervisor.State
  session : ApplySystem
  queue : List Command
  lock : Option Party
  stage : Stage
  serial : Nat
  applied : List String

namespace LaneSystem

def startFailed (detail : String) : ApplyError :=
  .transaction ("renderer.start failed: " ++ detail)

def phaseName : WorkerPhase → String
  | .idle => "idle"
  | .starting => "starting"
  | .canary => "canary"
  | .live => "live"
  | .restarting => "restarting"
  | .awaitingAck => "awaiting_ack"
  | .rolledBack => "rolled_back"
  | .stopped => "stopped"
  | .quarantined => "quarantined"

/-- The error of a start that was answered with a terminal phase. -/
def rejected (started : WorkerStatus) : ApplyError :=
  let detail := started.lastFailureDetail.getD (phaseName started.phase)
  if started.quarantined then
    .quarantined ("disabled after " ++ toString started.failures ++
      " failures under this build; last failure: " ++ detail)
  else .transaction ("renderer rejected the start (" ++ phaseName started.phase ++ ": " ++
    detail ++ ")")

/-- The transaction ends, and its lock is free. -/
def finish (request : ApplyRequest) (result : Except ApplyError Unit) (w : LaneSystem) :
    LaneSystem :=
  { w with stage := .done request result, lock := none }

/-- A move of the worker; `full` tells that the supervisor's queue is. -/
inductive LaneMove
  | take
  | acquire
  | ask (full : Bool)
  | giveUpStatus
  | refuse (error : ApplyError)
  | send (spec : StartSpec) (full : Bool)
  | giveUpStart
  | promote
  | fail (error : ApplyError)
  | complete
  | recheck (answered : Bool)
  | stop (full : Bool)
  | post

def move (w : LaneSystem) : LaneMove → LaneSystem
  | .take =>
    match w.stage with
    | .ready => { w with session := w.session.take }
    | _ => w
  | .acquire =>
    match w.stage, w.session.working with
    | .ready, some request =>
      if w.lock.isNone then { w with lock := some .playlist, stage := .locked request }
      else { w with stage := .done request (.error .busy) }
    | _, _ => w
  | .ask full =>
    match w.stage with
    | .locked request =>
      -- Without an answer the transaction goes on.
      if full then { w with stage := .checked false request }
      else { w with
        queue := w.queue ++ [.status w.serial]
        stage := .reading w.serial request
        serial := w.serial + 1 }
    | _ => w
  | .giveUpStatus =>
    match w.stage with
    | .reading _ request => { w with stage := .checked false request }
    | _ => w
  | .refuse error =>
    match w.stage with
    | .checked _ request => w.finish request (.error error)
    | _ => w
  | .send spec full =>
    match w.stage with
    | .checked answered request =>
      if spec.wallpaperId ≠ request.wallpaperId then w
      else if full then
        { w with stage := .failing request spec (startFailed "supervisor command queue is full") }
      else { w with
        queue := w.queue ++ [.start ⟨w.serial, request, spec, answered⟩]
        stage := .starting w.serial request spec
        serial := w.serial + 1 }
    | _ => w
  | .giveUpStart =>
    match w.stage with
    | .starting _ request spec =>
      { w with stage := .failing request spec (startFailed "supervisor command timed out") }
    | _ => w
  | .promote =>
    match w.stage with
    | .promoting request spec =>
      let status := status w.supervisor
      if (status.phase = .live ∨ status.phase = .awaitingAck) ∧ ours status spec then
        { w with stage := .confirmed request spec }
      else w
    | _ => w
  | .fail error =>
    match w.stage with
    | .promoting request spec => { w with stage := .failing request spec error }
    | .confirmed request spec => { w with stage := .failing request spec error }
    | _ => w
  | .complete =>
    match w.stage with
    | .confirmed request _ =>
      { w.finish request (.ok ()) with applied := w.applied ++ [request.wallpaperId] }
    | _ => w
  | .recheck answered =>
    match w.stage with
    | .failing request spec error =>
      if answered && ours (status w.supervisor) spec then
        { w with stage := .stopping request error }
      else w.finish request (.error error)
    | _ => w
  | .stop full =>
    match w.stage with
    | .stopping request error =>
      let w := if full then w else { w with queue := w.queue ++ [.stop] }
      w.finish request (.error error)
    | _ => w
  | .post =>
    match w.stage with
    | .done _ result =>
      let session := w.session.finish result
      if session.working.isNone then { w with session := session, stage := .ready }
      else w
    | _ => w

/-- A move of the user's `wallpaper.apply`. -/
inductive UserMove
  | acquire
  | send (command : UserCommand)
  | release

def userMove (w : LaneSystem) : UserMove → LaneSystem
  | .acquire => if w.lock.isNone then { w with lock := some .user } else w
  | .send command =>
    if w.lock = some .user then { w with queue := w.queue ++ [.user command] } else w
  | .release => if w.lock = some .user then { w with lock := none } else w

/-! ## The supervisor's queue -/

/-- The answer to the lane's reading of the status. -/
def answer (serial : Nat) (w : LaneSystem) : LaneSystem :=
  match w.stage with
  | .reading current request =>
    if serial ≠ current then w
    else
      let status := status w.supervisor
      if foreignRendererLive status request.wallpaperId request.applied then
        w.finish request (.error (.yielded ("foreign renderer " ++
          status.requestedWallpaperId.getD "none" ++ " is live; the playlist yields")))
      else { w with stage := .checked true request }
  | _ => w

/-- The reply to the lane's start, while the lane waits for it. -/
def reply (sent : LaneStart) (replied : Option Supervisor.Reply) (w : LaneSystem) : LaneSystem :=
  match w.stage with
  | .starting current request spec =>
    if sent.serial ≠ current then w
    else
      match replied with
      | some (.ok started) =>
        if started.phase = .quarantined ∨ started.phase = .rolledBack then
          { w with stage := .failing request spec (rejected started) }
        else { w with stage := .promoting request spec }
      | some (.error detail) => { w with stage := .failing request spec (startFailed detail) }
      | none => w
  | _ => w

section Codec

variable (cfg : Config) (codec : Codec) (config : LaneConfig)

def serve (io : Io) (w : LaneSystem) : LaneSystem :=
  match w.queue with
  | [] => w
  | command :: queue =>
    let w := { w with queue := queue }
    match command with
    | .status serial => w.answer serial
    | .start sent =>
      let input := Supervisor.Input.start sent.spec io
      { w with supervisor := Supervisor.step cfg w.supervisor input }.reply sent
        (Supervisor.reply cfg w.supervisor input)
    | .stop => { w with supervisor := Supervisor.step cfg w.supervisor (.stop io) }
    | .user command =>
      { w with supervisor := Supervisor.step cfg w.supervisor (command.input io) }

/-! ## Steps -/

/-- A step of the session by itself; the status that a tick reads is the
supervisor's. -/
def sessionStep (w : LaneSystem) (e : ApplySystem.LaneEvent) : LaneSystem :=
  match e.action with
  | .take | .finish _ => w
  | .tick quarantined (some (.ok _)) =>
    let answered := some (.ok (status w.supervisor))
    { w with session := w.session.tickSession codec config e.elapsed quarantined answered }
  | _ => { w with session := w.session.step codec config e }

inductive Event
  | session (e : ApplySystem.LaneEvent)
  | lane (move : LaneMove)
  | user (move : UserMove)
  | serve (io : Io)
  /-- A command without the lock, or a check of the supervisor's tick. -/
  | direct (input : Supervisor.Input)

def step (w : LaneSystem) : Event → LaneSystem
  | .session e => w.sessionStep codec config e
  | .lane move => w.move move
  | .user move => w.userMove move
  | .serve io => w.serve cfg io
  | .direct input => { w with supervisor := Supervisor.step cfg w.supervisor input }

end Codec

/-- A daemon that starts. -/
def new (persisted : Supervisor.PersistedState) (session : ApplySystem) : LaneSystem where
  supervisor := .new persisted
  session := session
  queue := []
  lock := none
  stage := .ready
  serial := 0
  applied := []

end LaneSystem

end Kwe.Playlists

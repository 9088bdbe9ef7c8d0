import Kwe.Cdp.Correlation

/-!
The web renderer from the start of its browser session to the end of its
capture loop: the requests it waits for, the frames it acknowledges, the
heartbeat, and what it publishes.

The environment decides what a poll reads, whether a request could be written,
what the clock says, which input arrives, and whether the worker is told to
stop.  Beside the state of the worker, a world keeps the requests written and
the events received so far.  A start that failed to find its page is repeated
once, with a new browser: that is a run of its own.
-/

namespace Kwe.Web

open Foundation Foundation.Collections Cdp

/-- What the worker is started with. -/
structure Config where
  /-- `url_matches_marker`, for the page of the wallpaper. -/
  urlMatches : String → Bool
  /-- `decode_screencast`, at the size of the frames. -/
  decode : String → Option (List UInt8)
  width : Nat
  height : Nat
  pixelBytes : Nat
  /-- Between two frames. -/
  interval : Nat
  heartbeatInterval : Nat
  heartbeatMaxFailures : Nat

/-! ## Requests -/

/-- The requests that the worker waits for. -/
inductive Question
  | getTargets
  | attachToTarget (targetId : String)
  | enable
  | startScreencast
  /-- Of a frame taken in `start`, or in the capture loop. -/
  | ack (starting : Bool) (event : Event) (frameSession : Json)
  | pointer (params : Json)
  | audio (expression : String)

namespace Question

def method : Question → String
  | .getTargets => "Target.getTargets"
  | .attachToTarget _ => "Target.attachToTarget"
  | .enable => "Page.enable"
  | .startScreencast => "Page.startScreencast"
  | .ack _ _ _ => "Page.screencastFrameAck"
  | .pointer _ => "Input.dispatchMouseEvent"
  | .audio _ => "Runtime.evaluate"

def params (cfg : Config) : Question → Json
  | .getTargets => .object []
  | .attachToTarget targetId => .object [("targetId", .string targetId), ("flatten", .bool true)]
  | .enable => .object []
  | .startScreencast => .object [("format", .string "jpeg"), ("quality", .nat 80),
      ("maxWidth", .nat cfg.width), ("maxHeight", .nat cfg.height), ("everyNthFrame", .nat 1)]
  | .ack _ _ frameSession => .object [("sessionId", frameSession)]
  | .pointer params => params
  | .audio expression => .object [("expression", .string expression)]

/-- The first two requests are of the browser, the others of the page. -/
def sessionId (session : Option String) : Question → Option String
  | .getTargets => none
  | .attachToTarget _ => none
  | _ => session

/-- The worker leaves when such a request fails; failures of the others are
counted. -/
def required : Question → Bool
  | .getTargets | .attachToTarget _ | .enable | .startScreencast => true
  | .ack _ _ _ | .pointer _ | .audio _ => false

end Question

/-- A request that was written. -/
structure Request where
  sessionId : Option String
  method : String
  params : Json

/-! ## The worker -/

inductive Leaving
  /-- An error, of the start or of the capture loop. -/
  | failed
  | exited (code : Nat)
  /-- `TERMINATED` was seen. -/
  | stopped

/-- Where the worker is. -/
inductive Stage
  | ask (q : Question)
  /-- In the loop of a request, before its poll. -/
  | await (id : UInt32) (q : Question)
  /-- After the poll: the answer may be there. -/
  | take (id : UInt32) (q : Question)
  | findPoll
  | startPoll
  | drain (starting : Bool)
  /-- `start` has returned. -/
  | begin
  | pointer
  | audio
  | observe
  | heartbeat
  | poll
  | publish
  | left (reason : Leaving)

inductive Move
  | send (sent : Except String Unit)
  /-- A round of a request's loop; `late` after its deadline. -/
  | wait (late : Bool) (polled : Polled)
  | take
  /-- A poll outside of requests; `late` after the deadline of the start. -/
  | poll (late : Bool) (polled : Polled)
  /-- The next event of the queue; `sent` for its acknowledgement. -/
  | next (sent : Except String Unit)
  | begin (now : Nat)
  | pointer (params : Option Json)
  | audio (expression : Option String)
  /-- A fault that is injected, or the signal to stop. -/
  | observe (leaving : Option Leaving)
  | heartbeat (now : Nat) (sent : Except String Unit)
  | publish (now : Nat) (written : Bool)

structure World where
  stage : Stage
  conn : Connection
  session : Option String
  viewport : Nat × Nat
  pending : Option (List UInt8)
  lastPixels : Option (List UInt8)
  deadline : Nat
  heartbeat : HeartbeatTracker
  framesSeen : Nat
  decodeFailures : Nat
  invalidFrames : Nat
  stallTicks : Nat
  /-- The requests written, in order. -/
  written : List Request
  /-- The events received, in order. -/
  received : List Event

def saturatingSucc64 (n : Nat) : Nat := min (n + 1) (2 ^ 64 - 1)

/-! ### Answers -/

/-- `value[key]`. -/
def index (value : Json) (key : String) : Json := (getField value key).getD .null

def asArray : Json → Option (List Json)
  | .array items => some items
  | _ => none

/-- The page targets of a browser. -/
def pagesOf (result : Option Json) : List Json :=
  match result.bind fun value => asArray (index value "targetInfos") with
  | none => []
  | some infos => infos.filter fun info => asStr (index info "type") = some "page"

inductive Found
  | target (targetId : String)
  /-- The target has no `targetId`. -/
  | unnamed
  | notYet

def targetOf (page : Json) : Found :=
  match asStr (index page "targetId") with
  | some targetId => .target targetId
  | none => .unnamed

/-- The page of the wallpaper, or a lone page with a URL. -/
def findTarget (cfg : Config) (pages : List Json) : Found :=
  match pages.find? fun page => (asStr (index page "url")).any cfg.urlMatches with
  | some page => targetOf page
  | none =>
    match pages with
    | [page] => if (asStr (index page "url")).any (· ≠ "") then targetOf page else .notYet
    | _ => .notYet

def ensureOk (result : Except Error Response) : Option Response :=
  match result with
  | .ok r => if r.error.isSome then none else some r
  | .error _ => none

/-- The viewport that the metadata of a frame gives. -/
def metadataViewport (params : Json) : Option (Nat × Nat) :=
  match getField params "metadata" with
  | none => none
  | some metadata =>
    match (getField metadata "deviceWidth").bind asU64, (getField metadata "deviceHeight").bind asU64 with
    | some width, some height =>
      if (width, height) = (0, 0) then none else some (width % 2 ^ 32, height % 2 ^ 32)
    | _, _ => none

/-- The session id of a frame, which its acknowledgement names. -/
def frameSession (e : Event) : Option Json := getField e.params "sessionId"

namespace World

def new : World :=
  { stage := .ask .getTargets
    conn := .new
    session := none
    viewport := (0, 0)
    pending := none
    lastPixels := none
    deadline := 0
    heartbeat := .new 0 0 0
    framesSeen := 0
    decodeFailures := 0
    invalidFrames := 0
    stallTicks := 0
    written := []
    received := [] }

def leave (w : World) (reason : Leaving) : World := { w with stage := .left reason }

def failDecode (w : World) (starting : Bool) : World :=
  { w with stage := .drain starting, decodeFailures := saturatingSucc64 w.decodeFailures }

/-- `handle_frame` after its request. -/
def acked (w : World) (cfg : Config) (starting : Bool) (e : Event) (answer : Option Response) :
    World :=
  match answer with
  | none => w.failDecode starting
  | some _ =>
    match (getField e.params "data").bind asStr with
    | none => w.failDecode starting
    | some data =>
      match cfg.decode data with
      | none => w.failDecode starting
      | some pixels =>
        { w with stage := if starting then .begin else .drain false, pending := some pixels }

/-- What follows a request. -/
def answered (w : World) (cfg : Config) (q : Question) (result : Except Error Response) : World :=
  match q with
  | .getTargets =>
    match ensureOk result with
    | none => w.leave .failed
    | some r =>
      match findTarget cfg (pagesOf r.result) with
      | .target targetId => { w with stage := .ask (.attachToTarget targetId) }
      | .unnamed => w.leave .failed
      | .notYet => { w with stage := .findPoll }
  | .attachToTarget _ =>
    match (ensureOk result).bind fun r => (r.result.bind (getField · "sessionId")).bind asStr with
    | none => w.leave .failed
    | some session => { w with session := some session, stage := .ask .enable }
  | .enable =>
    match ensureOk result with
    | none => w.leave .failed
    | some _ => { w with stage := .ask .startScreencast }
  | .startScreencast =>
    match ensureOk result with
    | none => w.leave .failed
    | some _ => { w with stage := .startPoll }
  | .ack starting e _ => w.acked cfg starting e (ensureOk result)
  | .pointer _ => { w with stage := .audio }
  | .audio _ => { w with stage := .observe }

/-! ### Requests and polls -/

def ask (w : World) (cfg : Config) (q : Question) (sent : Except String Unit) : World :=
  match w.conn.sendRequest (q.sessionId w.session) sent with
  | (conn, .ok id) =>
    { w with
      conn := conn
      stage := .await id q
      written := w.written ++ [⟨q.sessionId w.session, q.method, q.params cfg⟩] }
  | (conn, .error e) => { w with conn := conn }.answered cfg q (.error e)

def receive (w : World) (polled : Polled) : World :=
  { w with
    conn := (w.conn.poll polled).1
    received := w.received ++ (messagesOf polled).filterMap Message.event? }

/-- A poll whose failure ends the worker. -/
def pollTo (w : World) (polled : Polled) (stage : Stage) : World :=
  match (w.conn.poll polled).2 with
  | .error _ => (w.receive polled).leave .failed
  | .ok _ => { w.receive polled with stage := stage }

/-- A round of a request's loop, before the deadline. -/
def round (w : World) (cfg : Config) (id : UInt32) (q : Question) (polled : Polled) : World :=
  match (w.conn.poll polled).2 with
  | .error e => (w.receive polled).answered cfg q (.error e)
  | .ok _ => { w.receive polled with stage := .take id q }

/-- A frame of the worker's session. -/
def isOwnFrame (w : World) (e : Event) : Bool :=
  w.session.isSome && e.method = "Page.screencastFrame" && e.sessionId = w.session

/-- `handle_frame`, up to its request. -/
def handleFrame (w : World) (cfg : Config) (starting : Bool) (e : Event)
    (sent : Except String Unit) : World :=
  let w := { w with
    framesSeen := saturatingSucc64 w.framesSeen
    viewport := (metadataViewport e.params).getD w.viewport }
  match frameSession e with
  | none => w.failDecode starting
  | some session => w.ask cfg (.ack starting e session) sent

/-- The next event, or the end of the queue. -/
def drainNext (w : World) (cfg : Config) (starting : Bool) (sent : Except String Unit) : World :=
  match w.conn.nextEvent with
  | (_, none) => { w with stage := if starting then .startPoll else .publish }
  | (conn, some e) =>
    if w.isOwnFrame e then { w with conn := conn }.handleFrame cfg starting e sent
    else { w with conn := conn }

/-! ### The capture loop -/

/-- The answer of the probe in flight, and what the tracker makes of it. -/
def resolveProbe (w : World) (now : Nat) : World × HeartbeatOutcome :=
  match w.heartbeat.pending with
  | none => (w, .continue)
  | some (id, sentAt) =>
    match w.conn.takeResponse id with
    | (conn, some r) =>
      let resolved := w.heartbeat.resolve now (.answered r.error.isNone)
      ({ w with conn := conn, heartbeat := resolved.1 }, resolved.2)
    | (_, none) =>
      if w.heartbeat.interval ≤ now - sentAt then
        let resolved := w.heartbeat.resolve now .timedOut
        ({ w with heartbeat := resolved.1 }, resolved.2)
      else (w, .continue)

/-- A fresh probe, when it is time for one. -/
def sendProbe (w : World) (now : Nat) (sent : Except String Unit) : World × Option HeartbeatOutcome :=
  if w.heartbeat.shouldProbe now then
    match w.conn.sendRequest w.session sent with
    | (conn, .ok id) =>
      ({ w with
        conn := conn
        heartbeat := w.heartbeat.noteSent id now
        written := w.written ++
          [⟨w.session, "Runtime.evaluate", .object [("expression", .string "1+1")]⟩] }, none)
    | (conn, .error _) =>
      let resolved := w.heartbeat.resolve now .sendFailed
      ({ w with conn := conn, heartbeat := resolved.1 }, some resolved.2)
  else (w, none)

def exitBackendReject : Nat := 73

def heartbeatTick (w : World) (now : Nat) (sent : Except String Unit) : World :=
  let resolved := w.resolveProbe now
  let probed := resolved.1.sendProbe now sent
  match probed.2.getD resolved.2 with
  | .continue => { probed.1 with stage := .poll }
  | .exceeded _ => probed.1.leave (.exited exitBackendReject)

end World

inductive PublishDecision
  | newFrame
  | keepalive
  | wait
  deriving DecidableEq, Repr

def nextPublish (now deadline : Nat) (haveNewFrame haveLast : Bool) : PublishDecision :=
  if now < deadline then .wait
  else if haveNewFrame then .newFrame
  else if haveLast then .keepalive
  else .wait

namespace World

/-- `written`: the frame could be written. -/
def publish (w : World) (cfg : Config) (now : Nat) (written : Bool) : World :=
  if now < w.deadline then { w with stage := .pointer }
  else
    let next := { w with stage := .pointer, deadline := now + cfg.interval }
    match nextPublish now w.deadline w.pending.isSome w.lastPixels.isSome, w.pending, w.lastPixels with
    | .newFrame, some pixels, _ =>
      if pixels.length = cfg.pixelBytes then
        if written then { next with pending := none, lastPixels := some pixels }
        else w.leave .failed
      else { next with pending := none, invalidFrames := saturatingSucc64 w.invalidFrames }
    | .keepalive, _, some _ =>
      if written then { next with stallTicks := saturatingSucc64 w.stallTicks }
      else w.leave .failed
    | _, _, _ => next

def step (cfg : Config) (w : World) (m : Move) : World :=
  match w.stage, m with
  | .ask q, .send sent => w.ask cfg q sent
  | .await id q, .wait true _ =>
    { w with conn := w.conn.discardPending id }.answered cfg q (.error .timeout)
  | .await id q, .wait false polled => w.round cfg id q polled
  | .take id q, .take =>
    match w.conn.takeResponse id with
    | (conn, some r) => { w with conn := conn }.answered cfg q (.ok r)
    | (_, none) => { w with stage := .await id q }
  | .findPoll, .poll true _ => w.leave .failed
  | .findPoll, .poll false polled => w.pollTo polled (.ask .getTargets)
  | .startPoll, .poll true _ => w.leave .failed
  | .startPoll, .poll false polled => w.pollTo polled (.drain true)
  | .poll, .poll _ polled => w.pollTo polled (.drain false)
  | .drain starting, .next sent => w.drainNext cfg starting sent
  | .begin, .begin now =>
    { w with
      stage := .pointer
      deadline := now
      heartbeat := .new cfg.heartbeatInterval cfg.heartbeatMaxFailures now }
  | .pointer, .pointer params =>
    match params with
    | some params =>
      if w.viewport ≠ (0, 0) then { w with stage := .ask (.pointer params) }
      else { w with stage := .audio }
    | none => { w with stage := .audio }
  | .audio, .audio expression =>
    match expression with
    | some expression => { w with stage := .ask (.audio expression) }
    | none => { w with stage := .observe }
  | .observe, .observe leaving =>
    match leaving with
    | some reason => w.leave reason
    | none => { w with stage := .heartbeat }
  | .heartbeat, .heartbeat now sent => w.heartbeatTick now sent
  | .publish, .publish now written => w.publish cfg now written
  | _, _ => w

end World

end Kwe.Web

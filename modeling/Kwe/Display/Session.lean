import Kwe.Frames.Item
import Kwe.Supervisor.Displayed
import Kwe.Supervisor.Generations

/-!
The process that shows the wallpaper: a `DisplaySession` that asks the daemon
what to show and acknowledges it, and the surface that opens the frame file
and copies frames from it.

The surface follows `frameFile` of the session, and its `frameFileOpened` calls
`acknowledgeFrameFile` of the session; both happen inside the call that caused
them.  The socket path stays what it was at first.
-/

namespace Kwe.Display

open Kwe.Frames

/-! ## Messages -/

inductive Method
  | status
  | acknowledge (generation : Nat)
  deriving DecidableEq, Repr

structure Request where
  id : Nat
  method : Method
  deriving DecidableEq, Repr

/-- What the session reads from the result of a reply: `none` is a value of the
wrong type, and `displayGeneration` is `toInteger(-1)`. -/
structure StatusReply where
  phase : Option String
  frameFile : Option (Option String)
  displayGeneration : Int
  awaitingDisplayAck : Option Bool
  scaling : String
  deriving DecidableEq, Repr

/-- A result, or a reply that is not `ok`. -/
abbrev Reply := Except String StatusReply

/-! ## The session -/

inductive SessionState
  | waiting | connecting | ready | degraded
  deriving DecidableEq, Repr

inductive RequestKind
  | none | status | acknowledge
  deriving DecidableEq, Repr

/-- `sent` says that the socket is connected and the request written. -/
structure DisplaySession where
  socketPath : String
  frameFile : String
  phase : String
  scaling : String
  errorMessage : String
  validatedFrameFile : String
  displayGeneration : Nat
  validatedGeneration : Nat
  requestId : Nat
  state : SessionState
  active : Bool
  awaitingDisplayAck : Bool
  ackPending : Bool
  inFlight : Bool
  sent : Bool
  requestKind : RequestKind
  deriving DecidableEq, Repr

def knownPhase (phase : String) : Bool :=
  ["idle", "starting", "canary", "live", "restarting", "awaiting_ack", "rolled_back", "stopped",
    "quarantined"].contains phase

namespace DisplaySession

def new (socketPath : String) : DisplaySession where
  socketPath := socketPath
  frameFile := ""
  phase := "idle"
  scaling := "aspect"
  errorMessage := ""
  validatedFrameFile := ""
  displayGeneration := 0
  validatedGeneration := 0
  requestId := 0
  state := .waiting
  active := false
  awaitingDisplayAck := false
  ackPending := false
  inFlight := false
  sent := false
  requestKind := .none

def validatedSourceIsCurrent (s : DisplaySession) : Bool :=
  s.validatedFrameFile ≠ "" && s.validatedFrameFile = s.frameFile &&
    s.validatedGeneration = s.displayGeneration

def setState (state : SessionState) (error : String) (s : DisplaySession) : DisplaySession :=
  { s with state := state, errorMessage := error }

def setActive (active : Bool) (s : DisplaySession) : DisplaySession := { s with active := active }

def setAwaitingDisplayAck (awaiting : Bool) (s : DisplaySession) : DisplaySession :=
  if s.awaitingDisplayAck = awaiting then s
  else { s with awaitingDisplayAck := awaiting, ackPending := awaiting && s.ackPending }

/-- The setters of `applyStatus`, in its order. -/
def takeStatus (phase scaling : String) (awaiting hasSource : Bool) (s : DisplaySession) :
    DisplaySession :=
  let scaling := if scaling = "fill" ∨ scaling = "stretch" then scaling else "aspect"
  ({ s with phase := phase, scaling := scaling }.setAwaitingDisplayAck awaiting).setActive hasSource

/-- The request in flight, if any, is given up. -/
def endRequest (s : DisplaySession) : DisplaySession :=
  { s with inFlight := false, sent := false, requestKind := .none }

def failRequest (message : String) (s : DisplaySession) : DisplaySession :=
  (s.endRequest.setActive false).setState .degraded message

/-- What is left of an acknowledgement that is due is a queued `refresh`. -/
def finishRequest (s : DisplaySession) : DisplaySession := s.endRequest.setState .ready ""

def startRequest (kind : RequestKind) (s : DisplaySession) : DisplaySession :=
  if s.inFlight then s
  else if s.socketPath = "" then
    s.failRequest "No runtime socket is available for the wallpaper service."
  else
    let s := { s with requestKind := kind, inFlight := true, sent := false }
    if s.state = .waiting then s.setState .connecting "" else s

def refresh (s : DisplaySession) : DisplaySession :=
  if s.inFlight then s
  else if s.ackPending && s.validatedSourceIsCurrent && s.awaitingDisplayAck then
    s.startRequest .acknowledge
  else s.startRequest .status

def acknowledgeFrameFile (s : DisplaySession) (path : String) : DisplaySession :=
  if path = "" ∨ path ≠ s.frameFile ∨ s.displayGeneration = 0 then s
  else
    let s := { s with validatedFrameFile := path, validatedGeneration := s.displayGeneration }
    if s.awaitingDisplayAck then { s with ackPending := true }.startRequest .acknowledge else s

/-- `sendRequest`, once the socket is connected, with the request written. -/
def sendRequest (s : DisplaySession) : DisplaySession × Option Request :=
  if 2 ^ 63 - 1 ≤ s.requestId then
    (s.failRequest "The display request sequence was exhausted.", none)
  else
    let s := { s with requestId := s.requestId + 1, sent := true }
    if s.requestKind = .acknowledge then
      ({ s with ackPending := false }, some ⟨s.requestId, .acknowledge s.validatedGeneration⟩)
    else (s, some ⟨s.requestId, .status⟩)

/-- The reply to request `id` is the one that is waited for. -/
def awaits (s : DisplaySession) (id : Nat) : Bool :=
  s.inFlight && s.sent && decide (id = s.requestId)

/-- The last lines of `applyStatus`. -/
def renewAck (s : DisplaySession) : DisplaySession :=
  { s with ackPending := s.ackPending || s.awaitingDisplayAck && s.validatedSourceIsCurrent }

end DisplaySession

/-! ## The surface -/

/-- What is found at a path when it is opened, and at each look after. -/
structure Look where
  entry : FrameItem.PathEntry
  views : Nat → List UInt8

structure Surface extends FrameItem where
  frameFile : String
  deriving DecidableEq, Repr

namespace Surface

def new : Surface := { FrameItem.new with frameFile := "" }

def openFrameFile (look : Look) (s : Surface) : Surface :=
  { s with toFrameItem := s.toFrameItem.openFrameFile s.frameFile look.entry look.views }

def setFrameFile (path : String) (look : Look) (s : Surface) : Surface :=
  if s.frameFile = path then s
  else
    let s := { s with frameFile := path }
    if path = "" then
      { s with toFrameItem := s.toFrameItem.closeFrameFile.setStatus .waiting "" }
    else s.openFrameFile look

/-- The reopen timer, which runs from a failed open to the next good one. -/
def reopen (look : Look) (s : Surface) : Surface :=
  if ¬ s.isOpen ∧ s.frameFile ≠ "" then s.openFrameFile look else s

def pollFrame (aged : Bool) (views : Nat → List UInt8) (s : Surface) : Surface :=
  { s with toFrameItem := s.toFrameItem.pollFrame s.frameFile aged views }

/-- The surface has the file at `path` open, and has copied a frame of it to
the last byte. -/
def Shows (path : String) (s : Surface) : Prop :=
  s.frameFile = path ∧ s.isOpen = true ∧ s.receivedSequence = true ∧
    s.image.map (fun image => image.pixels.length) = some s.layout.slotBytes

instance (path : String) (s : Surface) : Decidable (s.Shows path) :=
  inferInstanceAs (Decidable (_ ∧ _))

end Surface

/-! ## The two together -/

structure Screen where
  session : DisplaySession
  surface : Surface
  deriving DecidableEq, Repr

namespace Screen

def new (socketPath : String) : Screen := ⟨.new socketPath, .new⟩

/-- The surface does `f`, and every `frameFileOpened` it emits meanwhile is
answered. -/
def onSurface (f : Surface → Surface) (d : Screen) : Screen where
  session := ((f d.surface).opened.drop d.surface.opened.length).foldl
    DisplaySession.acknowledgeFrameFile d.session
  surface := f d.surface

/-- The part of `applyStatus` that takes what was read. -/
def adopt (look : Look) (phase frameFile scaling : String) (generation : Nat) (awaiting : Bool)
    (d : Screen) : Screen :=
  let hasSource := frameFile ≠ "" && generation ≠ 0
  let session := d.session.takeStatus phase scaling awaiting hasSource
  let d := { d with session := session }
  let d :=
    if hasSource ∧ (session.frameFile ≠ frameFile ∨ session.displayGeneration ≠ generation) then
      { d with
        session := { session with frameFile := frameFile, displayGeneration := generation } }.onSurface
          (Surface.setFrameFile frameFile look)
    else d
  { d with session := d.session.renewAck }

def applyStatus (look : Look) (status : StatusReply) (d : Screen) : Except String Screen :=
  match status.phase with
  | none => .error "The wallpaper service returned an unknown renderer state."
  | some phase =>
    if ¬ knownPhase phase then .error "The wallpaper service returned an unknown renderer state."
    else match status.frameFile with
    | none => .error "The wallpaper service returned an invalid frame path."
    | some frameFile =>
      if status.displayGeneration < 0 then
        .error "The wallpaper service returned an invalid display generation."
      else match status.awaitingDisplayAck with
      | none => .error "The wallpaper service omitted handoff state."
      | some awaiting =>
        if frameFile.getD "" ≠ "" ∧ status.displayGeneration = 0 then
          .error "The wallpaper service returned an incomplete display source."
        else .ok (d.adopt look phase (frameFile.getD "") status.scaling
          status.displayGeneration.toNat awaiting)

/-- `consumeResponse`, when the line is a reply to the request in flight. -/
def consumeResponse (look : Look) (reply : Reply) (d : Screen) : Screen :=
  match reply with
  | .error _ =>
    { d with
      session := d.session.failRequest "The wallpaper service rejected the display request." }
  | .ok status =>
    match d.applyStatus look status with
    | .error error => { d with session := d.session.failRequest error }
    | .ok d => { d with session := d.session.finishRequest }

end Screen

/-! ## The daemon's side -/

/-- The frame file of each process; `spawn_worker` gives no two the same. -/
structure FramePaths where
  path : Nat → String
  injective : Function.Injective path
  nonempty : ∀ child, path child ≠ ""

def scalingName : Supervisor.ScalingMode → String
  | .aspect => "aspect"
  | .fill => "fill"
  | .stretch => "stretch"

/-- `status`, as the session reads it: a number that no `qint64` holds is none. -/
def statusReply (paths : FramePaths) (s : Supervisor.State) : StatusReply where
  phase := some (Supervisor.phaseName s.phase)
  frameFile := some (s.source.map paths.path)
  displayGeneration := if s.displayGeneration < 2 ^ 63 then s.displayGeneration else -1
  awaitingDisplayAck := some s.retired.isSome
  scaling := scalingName (Supervisor.status s).scaling

end Kwe.Display

import Kwe.Display.Session
import Kwe.Frames.Readers

/-!
The supervisor and the process that shows the wallpaper, with the requests and
the replies between them.

A `Move` is what happens next: the supervisor takes any input of its own, a
timer of the session or of the surface fires, the daemon takes a request, a
reply arrives, or the request in flight fails.  Requests are taken and replies
arrive in any order and after any delay, and those of a request that was given
up are still taken.
-/

namespace Kwe.Display

open Foundation Kwe.Frames Kwe.Supervisor

structure System where
  supervisor : Supervisor.State
  screen : Screen
  /-- The requests that the daemon has yet to take. -/
  wire : List Request
  /-- The replies under way, each with the number of its request. -/
  replies : List (Nat × Reply)

def Input.acknowledges : Supervisor.Input → Bool
  | .acknowledge _ _ => true
  | _ => false

/-- Acknowledgements reach the supervisor through requests only. -/
inductive Move
  | supervise (i : Supervisor.Input) (h : Input.acknowledges i = false)
  | refresh
  | connected
  | fail (message : String)
  | serve (k : Nat) (io : Io)
  | deliver (k : Nat) (look : Look)
  | reopen (look : Look)
  | pollFrame (aged : Bool) (views : Nat → List UInt8)

namespace System

def new (persisted : PersistedState) (socketPath : String) : System where
  supervisor := .new persisted
  screen := .new socketPath
  wire := []
  replies := []

/-- The session does `f`. -/
def onSession (f : DisplaySession → DisplaySession) (w : System) : System :=
  { w with screen := { w.screen with session := f w.screen.session } }

def onScreen (f : Screen → Screen) (w : System) : System := { w with screen := f w.screen }

/-- The socket of the request in flight has yet to be connected. -/
def isConnecting (w : System) : Bool := w.screen.session.inFlight && !w.screen.session.sent

/-- The request that the session writes in the move. -/
def request (w : System) : Move → Option Request
  | .connected => if w.isConnecting then w.screen.session.sendRequest.2 else none
  | _ => none

/-- What the supervisor takes in the move. -/
def input (w : System) : Move → Option Supervisor.Input
  | .supervise i _ => some i
  | .serve k io =>
    match w.wire[k]? with
    | some ⟨_, .acknowledge generation⟩ => some (.acknowledge generation io)
    | _ => none
  | _ => none

section Step

variable (cfg : Config) (paths : FramePaths)

/-- The daemon takes the `k`-th request. -/
def serve (k : Nat) (io : Io) (w : System) : System :=
  match w.wire[k]? with
  | none => w
  | some ⟨id, .status⟩ =>
    { w with
      wire := w.wire.eraseIdx k
      replies := w.replies ++ [(id, .ok (statusReply paths w.supervisor))] }
  | some ⟨id, .acknowledge generation⟩ =>
    let supervisor := Supervisor.step cfg w.supervisor (.acknowledge generation io)
    let reply := (Supervisor.reply cfg w.supervisor (.acknowledge generation io)).getD (.error "")
    { w with
      supervisor := supervisor
      wire := w.wire.eraseIdx k
      replies := w.replies ++ [(id, reply.map fun _ => statusReply paths supervisor)] }

/-- The `k`-th reply arrives.  A reply to a request that was given up finds its
connection closed. -/
def deliver (k : Nat) (look : Look) (w : System) : System :=
  match w.replies[k]? with
  | none => w
  | some (id, reply) =>
    let w' := { w with replies := w.replies.eraseIdx k }
    if w.screen.session.awaits id then w'.onScreen (Screen.consumeResponse look reply) else w'

def step (w : System) : Move → System
  | .supervise i _ => { w with supervisor := Supervisor.step cfg w.supervisor i }
  | .refresh => w.onSession .refresh
  | .connected =>
    if w.isConnecting then
      { w.onSession (fun s => s.sendRequest.1) with
        wire := w.wire ++ w.screen.session.sendRequest.2.toList }
    else w
  | .fail message =>
    if w.screen.session.inFlight then w.onSession (.failRequest message) else w
  | .serve k io => w.serve cfg paths k io
  | .deliver k look => w.deliver k look
  | .reopen look => w.onScreen (Screen.onSurface (Surface.reopen look))
  | .pollFrame aged views => w.onScreen (Screen.onSurface (Surface.pollFrame aged views))

/-- The state after a run from a fresh start. -/
abbrev reached (persisted : PersistedState) (socketPath : String) (moves : List Move) : System :=
  Runs.run (step cfg paths) (new persisted socketPath) moves

end Step

/-! ## What is said of a move -/

/-- The reply that the session waits for arrives. -/
def answers (w : System) : Move → Bool
  | .deliver k _ => (w.replies[k]?).any fun reply => w.screen.session.awaits reply.1
  | _ => false

/-- The request in flight times out or breaks off, or its number would be the
last, or it asks for the status and is answered by an error. -/
def fails (w : System) : Move → Bool
  | .fail _ => w.screen.session.inFlight
  | .connected => w.isConnecting && decide (2 ^ 63 - 1 ≤ w.screen.session.requestId)
  | .deliver k _ => (w.replies[k]?).any fun reply =>
      w.screen.session.awaits reply.1 && !reply.2.isOk &&
        decide (w.screen.session.requestKind ≠ .acknowledge)
  | _ => false

/-- The session writes an acknowledgement of `generation`. -/
def Acknowledges (generation : Nat) (w : System) (m : Move) : Prop :=
  (w.request m).map Request.method = some (.acknowledge generation)

instance (generation : Nat) (w : System) (m : Move) : Decidable (w.Acknowledges generation m) :=
  inferInstanceAs (Decidable (_ = _))

/-- The daemon takes the `k`-th request, an acknowledgement of `generation`, and
accepts it. -/
def Accepts (cfg : Config) (k : Nat) (io : Io) (generation : Nat) (w : System) : Prop :=
  (w.wire[k]?).map Request.method = some (.acknowledge generation) ∧
    IsAccepted cfg w.supervisor (.acknowledge generation io)

/-- The supervisor's step, if the move is one, does not wrap the generation. -/
def NoWrap (cfg : Config) (w : System) (m : Move) : Prop :=
  ∀ i, w.input m = some i → Supervisor.NoWrap cfg w.supervisor i

/-- The supervisor waits for `generation` to be acknowledged. -/
def Waits (generation : Nat) (w : System) : Prop :=
  w.supervisor.retired.isSome = true ∧ w.supervisor.displayGeneration = generation

instance (generation : Nat) (w : System) : Decidable (w.Waits generation) :=
  inferInstanceAs (Decidable (_ ∧ _))

end System

/-! ## The supervisor in the system -/

variable {cfg : Config} {paths : FramePaths}

theorem step_supervisor (w : System) (m : Move) :
    (w.step cfg paths m).supervisor =
      ((w.input m).map (Supervisor.step cfg w.supervisor)).getD w.supervisor := by
  cases m with
  | serve k io =>
    simp only [System.step, System.serve, System.input]
    rcases w.wire[k]? with _ | ⟨id, method⟩
    · rfl
    · cases method <;> rfl
  | deliver k look =>
    simp only [System.step, System.deliver, System.input]
    rcases w.replies[k]? with _ | ⟨id, reply⟩
    · rfl
    · dsimp only
      split <;> rfl
  | connected =>
    simp only [System.step, System.input]
    split <;> rfl
  | fail message =>
    simp only [System.step, System.input]
    split <;> rfl
  | _ => rfl

/-- What every step of the supervisor keeps, every move keeps. -/
theorem supervisor_rule {P : Supervisor.State → Prop} {w : System} (m : Move)
    (hs : P w.supervisor)
    (hstep : ∀ i, w.input m = some i → P (Supervisor.step cfg w.supervisor i)) :
    P (w.step cfg paths m).supervisor := by
  rw [step_supervisor]
  cases hi : w.input m with
  | none => exact hs
  | some i => exact hstep i hi

/-! ## The surface -/

/-- A frame that was received is whole, and was told of. -/
structure Surface.Told (s : Surface) : Prop where
  signaled : s.receivedSequence = s.frameFileReadySignaled
  whole : s.receivedSequence = true →
    s.isOpen = true ∧ s.image.map (fun image => image.pixels.length) = some s.layout.slotBytes

theorem Surface.told_new : Surface.new.Told := ⟨rfl, by simp [Surface.new, FrameItem.new]⟩

/-- What one call of the surface does: it tells of the file it shows, or tells
nothing and shows nothing that it did not show. -/
structure Surface.Turns (s s' : Surface) : Prop where
  told : s'.Told
  opened : s'.opened = s.opened ∧ (∀ path, s'.Shows path → s.Shows path) ∨
    s'.opened = s.opened ++ [s'.frameFile] ∧ s'.Shows s'.frameFile

/-- What one opening of a file does: it tells of the file, or shows none. -/
structure Surface.Opens (s s' : Surface) : Prop where
  told : s'.Told
  opened : s'.opened = s.opened ∧ (∀ path, ¬ s'.Shows path) ∨
    s'.opened = s.opened ++ [s'.frameFile] ∧ s'.Shows s'.frameFile

theorem Surface.Opens.turns {s s' : Surface} (h : s.Opens s') : s.Turns s' :=
  ⟨h.told, h.opened.imp_left fun ⟨hopened, hhidden⟩ =>
    ⟨hopened, fun path hshows => absurd hshows (hhidden path)⟩⟩

theorem Surface.turns_self {s : Surface} (h : s.Told) : s.Turns s :=
  ⟨h, Or.inl ⟨rfl, fun _ hshows => hshows⟩⟩

/-- A file of which no frame was received is not shown. -/
theorem Surface.opens_closed {s s' : Surface} (hreceived : s'.receivedSequence = false)
    (hsignaled : s'.frameFileReadySignaled = false) (hopened : s'.opened = s.opened) :
    s.Opens s' := by
  refine ⟨⟨hreceived.trans hsignaled.symm, by simp [hreceived]⟩, Or.inl ⟨hopened, ?_⟩⟩
  rintro path ⟨-, -, hshown, -⟩
  simp [hreceived] at hshown

theorem readPieces_length {fileBytes offset bytes : Nat} {views : Nat → List UInt8}
    {pixels : List UInt8} (h : FrameItem.readPieces fileBytes views offset bytes = some pixels) :
    pixels.length = bytes := by
  unfold FrameItem.readPieces at h
  split at h
  · cases h
  · rw [mapM_eq_some_iff] at h
    simpa using (congrArg List.length h).symm

theorem Surface.turns_pollFrame {s : Surface} (h : s.Told) (aged : Bool)
    (views : Nat → List UInt8) : s.Turns (s.pollFrame aged views) := by
  unfold Surface.pollFrame
  rcases pollFrame_cases s.frameFile aged views s.toFrameItem with
    ⟨status, error, hpoll⟩ | ⟨before, slot, pixels, producerState, hsees, hpoll⟩
  · rw [hpoll]
    exact ⟨⟨h.signaled, h.whole⟩, Or.inl ⟨rfl, fun _ hshows => hshows⟩⟩
  · have hlength := readPieces_length hsees.pixels_eq
    rw [hpoll]
    have hshows : ({ s with
        toFrameItem := s.toFrameItem.install s.frameFile pixels before producerState } :
          Surface).Shows s.frameFile :=
      ⟨rfl, hsees.isOpen, rfl, by simp [FrameItem.install, hlength]⟩
    refine ⟨⟨rfl, fun _ => ⟨hsees.isOpen, hshows.2.2.2⟩⟩, ?_⟩
    cases hs : s.frameFileReadySignaled with
    | false => exact Or.inr ⟨by simp [FrameItem.install, hs], hshows⟩
    | true =>
      refine Or.inl ⟨by simp [FrameItem.install, hs], ?_⟩
      rintro path ⟨hpath, -⟩
      have hreceived : s.receivedSequence = true := h.signaled.trans hs
      exact ⟨hpath, hsees.isOpen, hreceived, (h.whole hreceived).2⟩

theorem Surface.opens_openFrameFile (s : Surface) (look : Look) :
    s.Opens (s.openFrameFile look) := by
  unfold Surface.openFrameFile FrameItem.openFrameFile
  dsimp only
  split
  · exact Surface.opens_closed rfl rfl rfl
  · exact Surface.opens_closed rfl rfl rfl
  · split
    · exact Surface.opens_closed rfl rfl rfl
    · split
      · exact Surface.opens_closed rfl rfl rfl
      · next layout _ =>
        let opened : Surface := { s with
          toFrameItem := { s.toFrameItem.closeFrameFile with
            isOpen := true, fileBytes := (look.views 0).length, layout := layout }.setStatus
              .waiting "" }
        have hopened : s.Opens opened := Surface.opens_closed rfl rfl rfl
        have hpolled := Surface.turns_pollFrame hopened.told false fun k => look.views (2 + k)
        refine ⟨hpolled.told, hpolled.opened.imp_left fun ⟨hsame, hshows⟩ => ⟨hsame, ?_⟩⟩
        rintro path hshown
        cases (hshows path hshown).2.2.1

theorem Surface.turns_reopen {s : Surface} (h : s.Told) (look : Look) :
    s.Turns (s.reopen look) := by
  unfold Surface.reopen
  split
  · exact (Surface.opens_openFrameFile s look).turns
  · exact Surface.turns_self h

theorem Surface.turns_setFrameFile {s : Surface} (h : s.Told) (path : String) (look : Look) :
    s.Turns (s.setFrameFile path look) := by
  unfold Surface.setFrameFile
  split
  · exact Surface.turns_self h
  · dsimp only
    split
    · exact Surface.Opens.turns (Surface.opens_closed rfl rfl rfl)
    · obtain ⟨htold, hopened⟩ := Surface.opens_openFrameFile { s with frameFile := path } look
      exact Surface.Opens.turns ⟨htold, hopened⟩

@[simp] theorem Surface.setFrameFile_frameFile (s : Surface) (path : String) (look : Look) :
    (s.setFrameFile path look).frameFile = path := by
  unfold Surface.setFrameFile
  split
  · assumption
  · dsimp only
    split <;> rfl

@[simp] theorem Surface.reopen_frameFile (s : Surface) (look : Look) :
    (s.reopen look).frameFile = s.frameFile := by
  unfold Surface.reopen
  split <;> rfl

@[simp] theorem Surface.pollFrame_frameFile (s : Surface) (aged : Bool)
    (views : Nat → List UInt8) : (s.pollFrame aged views).frameFile = s.frameFile := rfl

/-! ## The session under the surface -/

/-- The surface tells the session of nothing, and shows nothing new; or it
shows its file and the session is told so. -/
theorem Screen.onSurface_cases {f : Surface → Surface} {d : Screen}
    (h : d.surface.Turns (f d.surface)) :
    ((d.onSurface f).session = d.session ∧
      ∀ path, (f d.surface).Shows path → d.surface.Shows path) ∨
    (d.onSurface f).session = d.session.acknowledgeFrameFile (f d.surface).frameFile ∧
      (f d.surface).Shows (f d.surface).frameFile := by
  unfold Screen.onSurface
  rcases h.opened with ⟨hopened, hshows⟩ | ⟨hopened, hshows⟩
  · exact Or.inl ⟨by simp [hopened], hshows⟩
  · exact Or.inr ⟨by simp [hopened], hshows⟩

end Kwe.Display

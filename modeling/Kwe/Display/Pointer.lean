import Kwe.Foundation.Runs

/-!
The pointer client of the display surface: `InputClient`, the handlers of its socket and
timers, and the callbacks it leaves in the event loop.

* `World.line`: the events that were sent and those that wait, in one line;
* `Inv.step`: what every step keeps that comes when no start of an event is queued;
* `pointer_ordered`: in which order events are sent, and that the last one is.

The environment decides when the socket connects, what it reads and when it closes, and
when timers fire and callbacks run.  An event carries its number and the generation at the
time it was offered.  Signals for the user interface are left out, and so are the texts of
requests.
-/

namespace Kwe.Display.Pointer

open Foundation Foundation.Runs

/-- A position, its number among the events, and the generation when it was offered. -/
structure Event (ρ : Type) where
  serial : Nat
  generation : Nat
  phase : String
  x : ρ
  y : ρ
  deriving DecidableEq, Repr

inductive State
  | disabled | ready | sending | error
  deriving DecidableEq, Repr

/-- In `ended` the service closed it, and what it sent can still be read. -/
inductive Socket
  | closed | connecting | connected | ended
  deriving DecidableEq, Repr

/-- The largest `qint64`. -/
def maxId : Nat := 2 ^ 63 - 1

/-- Timers are running or not. -/
structure InputClient (ρ : Type) where
  socketPath : String
  displayGeneration : Nat
  socket : Socket
  requestTimeout : Bool
  retryCooldown : Bool
  current : Option (Event ρ)
  pending : Option (Event ρ)
  state : State
  errorMessage : String
  requestId : Nat
  lastAcceptedSequence : Nat
  coalescedEvents : Nat
  deriving DecidableEq, Repr

/-- What the buffer holds after a read. -/
inductive Received
  | oversized
  /-- No newline yet. -/
  | incomplete
  | unreadable
  | reply (version id : Int) (ok : Bool) (inputSequence : Int)
  deriving DecidableEq, Repr

/-- A callback of `QTimer::singleShot(0, …)`. -/
inductive Callback (ρ : Type)
  | begin (next : Event ρ)
  /-- Of a socket that closed during the request of this number. -/
  | check (request : Nat)
  deriving DecidableEq, Repr

/-- A request that was written. -/
structure Sent (ρ : Type) where
  event : Event ρ
  generation : Nat
  id : Nat
  deriving DecidableEq, Repr

/-- The client and its callbacks in the event loop; how many events were offered and how
many begun so far, the requests sent, and the events whose request another one ended. -/
structure World (ρ : Type) where
  client : InputClient ρ
  queue : List (Callback ρ)
  offered : Nat
  begun : Nat
  sent : List (Sent ρ)
  interrupted : List (Event ρ)
  deriving DecidableEq, Repr

namespace InputClient

variable {ρ : Type}

def new : InputClient ρ where
  socketPath := ""
  displayGeneration := 0
  socket := .closed
  requestTimeout := false
  retryCooldown := false
  current := none
  pending := none
  state := .disabled
  errorMessage := ""
  requestId := 0
  lastAcceptedSequence := 0
  coalescedEvents := 0

def enabled (c : InputClient ρ) : Bool :=
  c.socketPath ≠ "" ∧ c.displayGeneration ≠ 0 ∧ c.displayGeneration ≤ maxId

def setState (c : InputClient ρ) (state : State) (error : String) : InputClient ρ :=
  { c with state := state, errorMessage := error }

def resetForConfiguration (c : InputClient ρ) : InputClient ρ :=
  { c with
    socket := .closed
    requestTimeout := false
    retryCooldown := false
    current := none
    pending := none }.setState (if c.enabled then .ready else .disabled) ""

def fail (c : InputClient ρ) (message : String) : InputClient ρ :=
  { c with
    requestTimeout := false
    current := none
    socket := .closed
    retryCooldown := true }.setState .error message

/-- The socket is aborted and connects anew. -/
def begin (c : InputClient ρ) (event : Event ρ) : InputClient ρ :=
  { c with
    current := some event
    socket := .connecting
    requestTimeout := true }.setState .sending ""

/-- The event waits, in the place of one that waits already. -/
def wait (c : InputClient ρ) (event : Event ρ) : InputClient ρ :=
  { c with
    pending := some event
    coalescedEvents := if c.pending.isSome then c.coalescedEvents + 1 else c.coalescedEvents }

/-- What `consumeResponse` makes of the buffer: nothing yet, a failure, or the sequence
that was accepted. -/
def readResponse (c : InputClient ρ) : Received → Option (Except String Nat)
  | .oversized => some (.error "The wallpaper service returned an oversized pointer response.")
  | .incomplete => none
  | .unreadable => some (.error "The wallpaper service returned an invalid pointer response.")
  | .reply version id ok inputSequence =>
    if version ≠ 1 ∨ id ≠ c.requestId then
      some (.error "The wallpaper service returned a mismatched pointer response.")
    else if ok = false then
      some (.error
        "The wallpaper service rejected pointer input for this display generation.")
    else if inputSequence ≤ 0 then
      some (.error "The wallpaper service omitted the accepted pointer sequence.")
    else some (.ok inputSequence.toNat)

/-- `completeAndContinue`, but for the sequence and the callback it queues. -/
def complete (c : InputClient ρ) : InputClient ρ :=
  { c with
    requestTimeout := false
    retryCooldown := false
    current := none
    pending := none
    socket := .closed }.setState .ready ""

end InputClient

/-- What the event loop brings. -/
inductive Step (ρ : Type)
  | sendPointer (phase : String) (x y : ρ)
  | setSocketPath (path : String)
  | setDisplayGeneration (generation : Nat)
  /-- The request can be written or not. -/
  | connected (written : Bool)
  | readyRead (received : Received)
  | errorOccurred (peerClosed : Bool) (error : String)
  | disconnected
  | requestTimedOut
  | cooledDown
  /-- A callback runs, the one at this place of the queue. -/
  | run (place : Nat)

namespace World

variable {ρ : Type}

def start : World ρ := ⟨.new, [], 0, 0, [], []⟩

/-- `begin`; it ends a request that is under way. -/
def begin (w : World ρ) (event : Event ρ) : World ρ :=
  { w with
    client := w.client.begin event
    begun := w.begun + 1
    interrupted :=
      if w.client.state = .sending then w.interrupted ++ w.client.current.toList
      else w.interrupted }

def fail (w : World ρ) (message : String) : World ρ :=
  { w with client := w.client.fail message }

/-- The event of a position that is offered now. -/
def event (w : World ρ) (phase : String) (x y : ρ) : Event ρ :=
  ⟨w.offered, w.client.displayGeneration, phase, x, y⟩

/-- The part of `sendPointer` for a valid position. -/
def offer (w : World ρ) (phase : String) (x y : ρ) : World ρ :=
  if w.client.state = .error ∨ w.client.state = .sending then
    { w with offered := w.offered + 1, client := w.client.wait (w.event phase x y) }
  else { w with offered := w.offered + 1 }.begin (w.event phase x y)

/-- A coordinate is valid when it is finite and from 0 to 1, which `inUnit` decides. -/
def valid (inUnit : ρ → Bool) (phase : String) (x y : ρ) : Bool :=
  (phase = "enter" ∨ phase = "move" ∨ phase = "leave") ∧ inUnit x ∧ inUnit y

def sendPointer (inUnit : ρ → Bool) (w : World ρ) (phase : String) (x y : ρ) : World ρ :=
  if w.client.enabled then
    if valid inUnit phase x y then w.offer phase x y
    else w.fail "The display surface produced an invalid normalized pointer position."
  else w

/-- The request is written to the socket, which connected. -/
def write (w : World ρ) : World ρ :=
  { w with
    client.socket := .connected
    sent := w.sent ++ w.client.current.toList.map fun event =>
      ⟨event, w.client.displayGeneration, w.client.requestId⟩ }

def sendRequest (w : World ρ) (written : Bool) : World ρ :=
  if maxId ≤ w.client.requestId then w.fail "The pointer request sequence was exhausted."
  else
    let w := { w with client.requestId := w.client.requestId + 1 }
    if written then w.write else w.fail "The pointer request could not be queued."

def completeAndContinue (w : World ρ) : World ρ :=
  { w with
    client := w.client.complete
    queue := w.queue ++ w.client.pending.toList.map .begin }

def consumeResponse (w : World ρ) (received : Received) : World ρ :=
  match w.client.readResponse received with
  | none => w
  | some (.error message) => w.fail message
  | some (.ok sequence) =>
    let sequence := max w.client.lastAcceptedSequence sequence
    { w with client.lastAcceptedSequence := sequence }.completeAndContinue

def runCallback (w : World ρ) : Callback ρ → World ρ
  | .begin next => w.begin next
  | .check _ =>
    if w.client.state = .sending then
      w.fail "The wallpaper service closed the pointer request before a complete response."
    else w

/-- The cooldown is over, and no event waits. -/
def ready (w : World ρ) : World ρ :=
  { w with client := { w.client with retryCooldown := false, pending := none }.setState .ready "" }

/-- The handler of `m_retryCooldown`. -/
def retry (w : World ρ) : World ρ :=
  if w.client.enabled then
    match w.client.pending with
    | none => w.ready
    | some next => w.ready.begin next
  else { w with client := { w.client with retryCooldown := false }.setState .disabled "" }

def dequeue (w : World ρ) (place : Nat) : World ρ :=
  { w with queue := w.queue.eraseIdx place }

/-- Events that cannot happen change nothing. -/
def step (inUnit : ρ → Bool) (w : World ρ) : Step ρ → World ρ
  | .sendPointer phase x y => w.sendPointer inUnit phase x y
  | .setSocketPath path =>
    if w.client.socketPath = path then w
    else { w with client := { w.client with socketPath := path }.resetForConfiguration }
  | .setDisplayGeneration generation =>
    if w.client.displayGeneration = generation then w
    else
      { w with
        client := { w.client with displayGeneration := generation }.resetForConfiguration }
  | .connected written => if w.client.socket = .connecting then w.sendRequest written else w
  | .readyRead received =>
    if w.client.socket = .connected ∨ w.client.socket = .ended then w.consumeResponse received
    else w
  | .errorOccurred peerClosed error =>
    if w.client.state = .sending ∧ peerClosed = false then
      w.fail ("Could not forward pointer position: " ++ error)
    else w
  | .disconnected =>
    if w.client.socket = .connected then
      { w with
        client.socket := .ended
        queue := if w.client.state = .sending then w.queue ++ [.check w.begun] else w.queue }
    else w
  | .requestTimedOut =>
    if w.client.requestTimeout then
      w.fail "The wallpaper service did not accept pointer input in time."
    else w
  | .cooledDown => if w.client.retryCooldown then w.retry else w
  | .run place =>
    match w.queue[place]? with
    | none => w
    | some callback => (w.dequeue place).runCallback callback

/-! ## What is claimed of a run -/

/-- Every event is sent at most once and in the order of the offers, no request is ended
by another event, and every event is sent with the generation of its offer. -/
structure Ordered (w : World ρ) : Prop where
  order : (w.sent.map (·.event.serial)).Pairwise (· < ·)
  interrupted : w.interrupted = []
  generations : ∀ s ∈ w.sent, s.generation = s.event.generation

/-- The events whose start is queued. -/
def begins (w : World ρ) : List (Event ρ) :=
  w.queue.filterMap fun
    | .begin next => some next
    | .check _ => none

/-- The check of a closed socket does not run during a later request. -/
def Timely (w : World ρ) : Option (Callback ρ) → Prop
  | some (.check request) => w.client.state = .sending → request = w.begun
  | some (.begin _) | none => True

/-- No event is offered and the configuration is not changed while the start of an event
is queued; and a check runs in time. -/
def Prompt (w : World ρ) : Step ρ → Prop
  | .sendPointer _ _ _ => w.client.enabled = true → w.begins = []
  | .setSocketPath path => w.client.socketPath ≠ path → w.begins = []
  | .setDisplayGeneration generation => w.client.displayGeneration ≠ generation → w.begins = []
  | .run place => w.Timely w.queue[place]?
  | .connected _ | .readyRead _ | .errorOccurred _ _ | .disconnected | .requestTimedOut
    | .cooledDown => True

instance (w : World ρ) : ∀ callback, Decidable (w.Timely callback)
  | some (.check _) => inferInstanceAs (Decidable (_ → _))
  | some (.begin _) | none => .isTrue trivial

instance (w : World Nat) : ∀ s : Step Nat, Decidable (w.Prompt s)
  | .sendPointer _ _ _ => inferInstanceAs (Decidable (_ = true → _))
  | .setSocketPath _ => inferInstanceAs (Decidable (_ ≠ _ → _))
  | .setDisplayGeneration _ => inferInstanceAs (Decidable (_ ≠ _ → _))
  | .run place => inferInstanceAs (Decidable (w.Timely w.queue[place]?))
  | .connected _ | .readyRead _ | .errorOccurred _ _ | .disconnected | .requestTimedOut
    | .cooledDown => .isTrue trivial

/-- The service answers: requests are written and accepted in time; it may close a socket.
Nothing else comes from outside. -/
def Answering (w : World ρ) : Step ρ → Prop
  | .connected written => written = true ∧ w.client.requestId < maxId
  | .readyRead received => (w.client.readResponse received).all Except.isOk = true
  | .disconnected | .cooledDown | .run _ => True
  | .sendPointer _ _ _ | .setSocketPath _ | .setDisplayGeneration _ | .errorOccurred _ _
    | .requestTimedOut => False

instance (w : World ρ) : ∀ s : Step ρ, Decidable (w.Answering s)
  | .connected _ => inferInstanceAs (Decidable (_ ∧ _))
  | .readyRead _ => inferInstanceAs (Decidable (_ = true))
  | .disconnected | .cooledDown | .run _ => .isTrue trivial
  | .sendPointer _ _ _ | .setSocketPath _ | .setDisplayGeneration _ | .errorOccurred _ _
    | .requestTimedOut => .isFalse id

/-- The step can happen, and brings more than a part of an answer. -/
def Possible (w : World ρ) : Step ρ → Prop
  | .connected _ => w.client.socket = .connecting
  | .readyRead received =>
    (w.client.socket = .connected ∨ w.client.socket = .ended) ∧
      w.client.readResponse received ≠ none
  | .disconnected => w.client.socket = .connected
  | .cooledDown => w.client.retryCooldown = true
  | .run place => place < w.queue.length
  | .sendPointer _ _ _ | .setSocketPath _ | .setDisplayGeneration _ | .errorOccurred _ _
    | .requestTimedOut => False

/-- Nothing is left to happen. -/
structure Idle (w : World ρ) : Prop where
  socket : w.client.socket = .closed
  retryCooldown : w.client.retryCooldown = false
  queue : w.queue = []

/-! ## The events in one line -/

/-- The event that is about to be sent. -/
def connecting (w : World ρ) : List (Event ρ) :=
  if w.client.socket = .connecting then w.client.current.toList else []

/-- The events that wait to be sent. -/
def waiting (w : World ρ) : List (Event ρ) := w.connecting ++ w.begins ++ w.client.pending.toList

/-- The events sent, and those that wait. -/
def line (w : World ρ) : List (Event ρ) := w.sent.map (·.event) ++ w.waiting

/-- What holds between the steps. -/
structure Inv (w : World ρ) : Prop where
  order : (w.line.map (·.serial)).Pairwise (· < ·)
  below : ∀ e ∈ w.line, e.serial < w.offered
  waiting : ∀ e ∈ w.waiting, e.generation = w.client.displayGeneration
  generations : ∀ s ∈ w.sent, s.generation = s.event.generation
  interrupted : w.interrupted = []
  /-- One start is queued at most, and only of a client that is ready. -/
  begins : w.begins ≠ [] → w.client.state = .ready ∧ w.client.pending = none
  single : w.begins.length ≤ 1
  pending : w.client.pending ≠ none → w.client.state = .sending ∨ w.client.state = .error
  enabled : w.client.state ≠ .disabled → w.client.enabled = true
  sending : w.client.state = .sending ↔ w.client.socket ≠ .closed
  timeout : w.client.requestTimeout = true → w.client.state = .sending
  cooldown : w.client.retryCooldown = true ↔ w.client.state = .error
  /-- A check is of a socket that no longer connects. -/
  checks : ∀ request, .check request ∈ w.queue →
    request ≤ w.begun ∧ (request = w.begun → w.client.socket ≠ .connecting)

variable {inUnit : ρ → Bool} {w : World ρ}

@[simp] theorem dequeue_client (place : Nat) : (w.dequeue place).client = w.client := rfl

@[simp] theorem dequeue_sent (place : Nat) : (w.dequeue place).sent = w.sent := rfl

theorem begins_complete : w.completeAndContinue.begins = w.begins ++ w.client.pending.toList := by
  have hmap : ∀ events : List (Event ρ), (events.map Callback.begin).filterMap (fun
      | .begin next => some next
      | .check _ => none) = events := by
    intro events
    induction events with
    | nil => rfl
    | cons event events ih => simp [ih]
  simp [begins, completeAndContinue, List.filterMap_append, hmap]

theorem queue_split {place : Nat} {callback : Callback ρ}
    (hplace : w.queue[place]? = some callback) :
    w.queue = w.queue.take place ++ callback :: w.queue.drop (place + 1) := by
  obtain ⟨hlt, rfl⟩ := List.getElem?_eq_some_iff.mp hplace
  rw [List.getElem_cons_drop, List.take_append_drop]

theorem begins_erase {place request : Nat} (hplace : w.queue[place]? = some (.check request)) :
    (w.dequeue place).begins = w.begins := by
  simp only [begins, dequeue, List.eraseIdx_eq_take_drop_succ]
  conv_rhs => rw [queue_split hplace]
  simp [List.filterMap_append]

/-- The start of an event, where it is the only one queued. -/
theorem begins_run (hsingle : w.begins.length ≤ 1) {place : Nat} {next : Event ρ}
    (hplace : w.queue[place]? = some (.begin next)) :
    w.begins = [next] ∧ (w.dequeue place).begins = [] := by
  have hbegins : w.begins = ({ w with queue := w.queue.take place } : World ρ).begins ++ next ::
      ({ w with queue := w.queue.drop (place + 1) } : World ρ).begins := by
    simp only [begins]
    conv_lhs => rw [queue_split hplace]
    simp [List.filterMap_append]
  have herase : (w.dequeue place).begins
      = ({ w with queue := w.queue.take place } : World ρ).begins ++
        ({ w with queue := w.queue.drop (place + 1) } : World ρ).begins := by
    simp [begins, dequeue, List.eraseIdx_eq_take_drop_succ, List.filterMap_append]
  rw [hbegins] at hsingle ⊢
  rw [herase]
  simp only [List.length_append, List.length_cons] at hsingle
  have hbefore := List.eq_nil_of_length_eq_zero (l :=
    ({ w with queue := w.queue.take place } : World ρ).begins) (by omega)
  have hafter := List.eq_nil_of_length_eq_zero (l :=
    ({ w with queue := w.queue.drop (place + 1) } : World ρ).begins) (by omega)
  simp [hbefore, hafter]

theorem waiting_of_connecting (hs : w.client.socket = .connecting) :
    w.waiting = w.client.current.toList ++ w.begins ++ w.client.pending.toList := by
  simp [waiting, connecting, hs]

theorem waiting_of_not_connecting (hs : w.client.socket ≠ .connecting) :
    w.waiting = w.begins ++ w.client.pending.toList := by
  simp [waiting, connecting, hs]

theorem line_fail (hs : w.client.socket ≠ .connecting) (m : String) :
    (w.fail m).line = w.line := by
  rw [line, line, waiting_of_not_connecting hs, waiting_of_not_connecting Socket.noConfusion]
  rfl

theorem waiting_begin (hb : w.begins = []) (hp : w.client.pending = none) (event : Event ρ) :
    (w.begin event).waiting = [event] := by
  have hq : (w.begin event).begins = [] := hb
  have hpend : (w.begin event).client.pending = none := hp
  rw [waiting, hq, hpend]
  rfl

theorem line_begin (hb : w.begins = []) (hp : w.client.pending = none) (event : Event ρ) :
    (w.begin event).line = w.sent.map (·.event) ++ [event] := by
  rw [line, waiting_begin hb hp]
  rfl

namespace Inv

theorem start : (start : World ρ).Inv where
  order := by simp [line, World.waiting, connecting, World.begins, World.start, InputClient.new]
  below := by simp [line, World.waiting, connecting, World.begins, World.start, InputClient.new]
  waiting := by simp [World.waiting, connecting, World.begins, World.start, InputClient.new]
  generations := by simp [World.start]
  interrupted := rfl
  begins := by simp [World.begins, World.start]
  single := by simp [World.begins, World.start]
  pending := by simp [World.start, InputClient.new]
  enabled := by simp [World.start, InputClient.new]
  sending := by simp [World.start, InputClient.new]
  timeout := by simp [World.start, InputClient.new]
  cooldown := by simp [World.start, InputClient.new]
  checks := by simp [World.start]

/-- No start is queued during a request. -/
theorem begins_of_sending (h : w.Inv) (hs : w.client.state = .sending) : w.begins = [] := by
  by_contra hne
  have := (h.begins hne).1
  simp [hs] at this

/-- What waits can be dropped. -/
theorem fail (h : w.Inv) (he : w.client.enabled = true) (hb : w.begins = []) (m : String) :
    (w.fail m).Inv := by
  have hq : (w.fail m).begins = [] := hb
  have hwait : (w.fail m).waiting = w.client.pending.toList := by
    rw [waiting_of_not_connecting Socket.noConfusion, hq]
    rfl
  have hsub : List.Sublist (w.fail m).waiting w.waiting := by
    rw [hwait]
    exact List.sublist_append_right _ _
  have hline : List.Sublist (w.fail m).line w.line := hsub.append_left _
  exact {
    order := h.order.sublist (hline.map _)
    below := fun e hmem => h.below e (hline.subset hmem)
    waiting := fun e hmem => h.waiting e (hsub.subset hmem)
    generations := h.generations
    interrupted := h.interrupted
    begins := fun hne => absurd hq hne
    single := by simp [hq]
    pending := fun _ => Or.inr rfl
    enabled := fun _ => he
    sending := by simp [World.fail, InputClient.fail, InputClient.setState]
    timeout := by simp [World.fail, InputClient.fail, InputClient.setState]
    cooldown := by simp [World.fail, InputClient.fail, InputClient.setState]
    checks := fun request hmem =>
      ⟨(h.checks request hmem).1, fun _ => by
        simp [World.fail, InputClient.fail, InputClient.setState]⟩ }

theorem reset (h : w.Inv) (hb : w.begins = []) {c : InputClient ρ} :
    ({ w with client := c.resetForConfiguration } : World ρ).Inv := by
  have hq : ({ w with client := c.resetForConfiguration } : World ρ).begins = [] := hb
  have hwait : ({ w with client := c.resetForConfiguration } : World ρ).waiting = [] := by
    rw [waiting_of_not_connecting Socket.noConfusion, hq]
    rfl
  have hline : List.Sublist ({ w with client := c.resetForConfiguration } : World ρ).line
      w.line := by
    simp [line, hwait]
  exact {
    order := h.order.sublist (hline.map _)
    below := fun e hmem => h.below e (hline.subset hmem)
    waiting := by simp [hwait]
    generations := h.generations
    interrupted := h.interrupted
    begins := fun hne => absurd hq hne
    single := by simp [hq]
    pending := by simp [InputClient.resetForConfiguration, InputClient.setState]
    enabled := by
      simp only [InputClient.resetForConfiguration, InputClient.setState]
      split
      · intro _
        assumption
      · simp
    sending := by
      simp only [InputClient.resetForConfiguration, InputClient.setState]
      split <;> simp
    timeout := by simp [InputClient.resetForConfiguration, InputClient.setState]
    cooldown := by
      simp only [InputClient.resetForConfiguration, InputClient.setState]
      split <;> simp
    checks := fun request hmem =>
      ⟨(h.checks request hmem).1, fun _ => by
        simp [InputClient.resetForConfiguration, InputClient.setState]⟩ }

/-- An event is begun when nothing waits before it. -/
theorem begin {event : Event ρ} (hb : w.begins = []) (hp : w.client.pending = none)
    (hs : w.client.state ≠ .sending) (hc : w.client.retryCooldown = false)
    (he : w.client.enabled = true) (hi : w.interrupted = [])
    (horder : ((w.sent.map (·.event) ++ [event]).map (·.serial)).Pairwise (· < ·))
    (hbelow : ∀ e ∈ w.sent.map (·.event) ++ [event], e.serial < w.offered)
    (hgen : event.generation = w.client.displayGeneration)
    (hsent : ∀ s ∈ w.sent, s.generation = s.event.generation)
    (hchecks : ∀ request, .check request ∈ w.queue → request ≤ w.begun) :
    (w.begin event).Inv := by
  have hq : (w.begin event).begins = [] := hb
  have hwait := waiting_begin hb hp event
  have hline := line_begin hb hp event
  exact {
    order := by rw [hline]; exact horder
    below := by rw [hline]; exact hbelow
    waiting := by
      rw [hwait]
      intro e hmem
      obtain rfl := List.mem_singleton.mp hmem
      exact hgen
    generations := hsent
    interrupted := by simp [World.begin, hs, hi]
    begins := fun hne => absurd hq hne
    single := by simp [hq]
    pending := fun hne => absurd hp hne
    enabled := fun _ => he
    sending := by simp [World.begin, InputClient.begin, InputClient.setState]
    timeout := fun _ => rfl
    cooldown := by simp [World.begin, InputClient.begin, InputClient.setState, hc]
    checks := fun request hmem => by
      have hle := hchecks request hmem
      refine ⟨Nat.le_succ_of_le hle, fun heq => ?_⟩
      have : request = w.begun + 1 := heq
      omega }

theorem order_snoc (h : w.Inv) {events : List (Event ρ)} {event : Event ρ}
    (hsub : List.Sublist events w.line) (hserial : event.serial = w.offered) :
    ((events ++ [event]).map (·.serial)).Pairwise (· < ·) := by
  rw [List.map_append, List.pairwise_append]
  refine ⟨h.order.sublist (hsub.map _), by simp, ?_⟩
  intro a ha b hb
  obtain ⟨e, he, rfl⟩ := List.mem_map.mp ha
  simp only [List.map_cons, List.map_nil, List.mem_singleton] at hb
  rw [hb, hserial]
  exact h.below e (hsub.subset he)

theorem below_snoc (h : w.Inv) {events : List (Event ρ)} {event : Event ρ}
    (hsub : List.Sublist events w.line) (hserial : event.serial = w.offered) :
    ∀ e ∈ events ++ [event], e.serial < w.offered + 1 := by
  intro e hmem
  rcases List.mem_append.mp hmem with hmem | hmem
  · exact Nat.lt_succ_of_lt (h.below e (hsub.subset hmem))
  · obtain rfl := List.mem_singleton.mp hmem
    omega

theorem pending_none (h : w.Inv) (hs : w.client.state ≠ .sending)
    (he : w.client.state ≠ .error) : w.client.pending = none := by
  by_contra hne
  rcases h.pending hne with hst | hst
  · exact hs hst
  · exact he hst

theorem begins_of_not_ready (h : w.Inv) (hs : w.client.state ≠ .ready) : w.begins = [] := by
  by_contra hne
  exact hs (h.begins hne).1

/-! ### Offers -/

theorem line_wait (h : w.Inv) (hs : w.client.state = .sending ∨ w.client.state = .error)
    (event : Event ρ) :
    ({ w with offered := w.offered + 1, client := w.client.wait event } : World ρ).line
      = w.sent.map (·.event) ++ w.connecting ++ [event] := by
  have hq : w.begins = [] := by
    apply h.begins_of_not_ready
    rcases hs with hs | hs <;> simp [hs]
  have hwait : ({ w with offered := w.offered + 1, client := w.client.wait event } :
      World ρ).waiting = w.connecting ++ w.begins ++ [event] := rfl
  rw [line, hwait, hq]
  simp

theorem sent_sublist : List.Sublist (w.sent.map (·.event)) w.line := List.sublist_append_left _ _

theorem sent_connecting_sublist : List.Sublist (w.sent.map (·.event) ++ w.connecting) w.line := by
  have hsub : List.Sublist w.connecting w.waiting := by
    rw [World.waiting, List.append_assoc]
    exact List.sublist_append_left _ _
  exact hsub.append_left _

theorem wait (h : w.Inv) (hs : w.client.state = .sending ∨ w.client.state = .error)
    {event : Event ρ} (hserial : event.serial = w.offered)
    (hgen : event.generation = w.client.displayGeneration) :
    ({ w with offered := w.offered + 1, client := w.client.wait event } : World ρ).Inv := by
  have hline := h.line_wait hs event
  have hq : w.begins = [] := by
    apply h.begins_of_not_ready
    rcases hs with hs | hs <;> simp [hs]
  exact {
    order := by
      rw [hline]
      exact h.order_snoc sent_connecting_sublist hserial
    below := by
      rw [hline]
      exact h.below_snoc sent_connecting_sublist hserial
    waiting := by
      intro e hmem
      rcases List.mem_append.mp hmem with hmem | hmem
      · exact h.waiting e (List.mem_append_left _ hmem)
      · obtain rfl := List.mem_singleton.mp hmem
        exact hgen
    generations := h.generations
    interrupted := h.interrupted
    begins := fun hne => absurd hq hne
    single := h.single
    pending := fun _ => hs
    enabled := h.enabled
    sending := h.sending
    timeout := h.timeout
    cooldown := h.cooldown
    checks := h.checks }

theorem offer_line (h : w.Inv) (hb : w.begins = []) (phase : String) (x y : ρ) :
    ∃ events, (w.offer phase x y).line = events ++ [w.event phase x y] := by
  unfold World.offer
  split
  · exact ⟨_, h.line_wait (Or.symm ‹_›) _⟩
  · rename_i hs
    have hp := h.pending_none (fun hst => hs (Or.inr hst)) (fun hst => hs (Or.inl hst))
    exact ⟨_, line_begin (w := { w with offered := w.offered + 1 }) hb hp _⟩

theorem offer (h : w.Inv) (he : w.client.enabled = true) (hb : w.begins = []) (phase : String)
    (x y : ρ) : (w.offer phase x y).Inv := by
  unfold World.offer
  split
  · exact h.wait (Or.symm ‹_›) rfl rfl
  · rename_i hs
    have hsending : w.client.state ≠ .sending := fun hst => hs (Or.inr hst)
    have herror : w.client.state ≠ .error := fun hst => hs (Or.inl hst)
    have hcooldown : w.client.retryCooldown = false := by
      simpa [herror] using h.cooldown
    exact begin hb (h.pending_none hsending herror) hsending hcooldown he h.interrupted
      (h.order_snoc sent_sublist rfl) (h.below_snoc sent_sublist rfl) rfl h.generations
      fun request hmem => (h.checks request hmem).1

/-! ### Requests and answers -/

theorem line_write (h : w.Inv) (hs : w.client.socket = .connecting) : w.write.line = w.line := by
  have hq : w.begins = [] := h.begins_of_sending (h.sending.mpr (by simp [hs]))
  have hq' : w.write.begins = [] := hq
  rw [line, line, waiting_of_connecting hs, waiting_of_not_connecting Socket.noConfusion, hq, hq']
  simp [World.write, Function.comp_def]

theorem write (h : w.Inv) (hs : w.client.socket = .connecting) : w.write.Inv := by
  have hq : w.begins = [] := h.begins_of_sending (h.sending.mpr (by simp [hs]))
  have hq' : w.write.begins = [] := hq
  have hwait : w.waiting = w.client.current.toList ++ w.write.waiting := by
    rw [waiting_of_connecting hs, waiting_of_not_connecting Socket.noConfusion, hq, hq']
    simp [World.write]
  exact {
    order := by
      rw [h.line_write hs]
      exact h.order
    below := by
      rw [h.line_write hs]
      exact h.below
    waiting := fun e hmem => h.waiting e (by rw [hwait]; exact List.mem_append_right _ hmem)
    generations := by
      intro s hmem
      rcases List.mem_append.mp hmem with hmem | hmem
      · exact h.generations s hmem
      · obtain ⟨e, he, rfl⟩ := List.mem_map.mp hmem
        exact (h.waiting e (by rw [hwait]; exact List.mem_append_left _ he)).symm
    interrupted := h.interrupted
    begins := fun hne => absurd hq hne
    single := h.single
    pending := h.pending
    enabled := h.enabled
    sending := by simpa [World.write, hs] using h.sending
    timeout := h.timeout
    cooldown := h.cooldown
    checks := fun request hmem =>
      ⟨(h.checks request hmem).1, fun _ => Socket.noConfusion⟩ }

theorem sendRequest (h : w.Inv) (hs : w.client.socket = .connecting) (written : Bool) :
    (w.sendRequest written).Inv := by
  have hstate : w.client.state = .sending := h.sending.mpr (by simp [hs])
  have hq : w.begins = [] := h.begins_of_sending hstate
  have he : w.client.enabled = true := h.enabled (by simp [hstate])
  have hnext : ({ w with client.requestId := w.client.requestId + 1 } : World ρ).Inv := { h with }
  unfold World.sendRequest
  split
  · exact h.fail he hq _
  cases written with
  | true => exact hnext.write hs
  | false => exact hnext.fail he hq _

/-- The event that waited is queued now. -/
theorem waiting_complete (h : w.Inv) (hs : w.client.state = .sending)
    (hne : w.client.socket ≠ .connecting) : w.completeAndContinue.waiting = w.waiting := by
  rw [waiting_of_not_connecting Socket.noConfusion, waiting_of_not_connecting hne,
    begins_complete, h.begins_of_sending hs]
  simp [World.completeAndContinue, InputClient.complete, InputClient.setState]

theorem line_complete (h : w.Inv) (hs : w.client.state = .sending)
    (hne : w.client.socket ≠ .connecting) : w.completeAndContinue.line = w.line := by
  rw [line, line, h.waiting_complete hs hne]
  rfl

theorem complete (h : w.Inv) (hs : w.client.state = .sending)
    (hne : w.client.socket ≠ .connecting) : w.completeAndContinue.Inv where
  order := by
    rw [h.line_complete hs hne]
    exact h.order
  below := by
    rw [h.line_complete hs hne]
    exact h.below
  waiting := by
    rw [h.waiting_complete hs hne]
    exact h.waiting
  generations := h.generations
  interrupted := h.interrupted
  begins := fun _ => ⟨rfl, rfl⟩
  single := by
    rw [begins_complete, h.begins_of_sending hs]
    cases w.client.pending <;> simp
  pending := fun hpend => absurd rfl hpend
  enabled := fun _ => h.enabled (by simp [hs])
  sending := by
    simp [World.completeAndContinue, InputClient.complete, InputClient.setState]
  timeout := by simp [World.completeAndContinue, InputClient.complete, InputClient.setState]
  cooldown := by simp [World.completeAndContinue, InputClient.complete, InputClient.setState]
  checks := by
    intro request hmem
    rcases List.mem_append.mp hmem with hmem | hmem
    · exact ⟨(h.checks request hmem).1, fun _ => Socket.noConfusion⟩
    · obtain ⟨_, _, hcallback⟩ := List.mem_map.mp hmem
      cases hcallback

theorem sending_of_readable (h : w.Inv)
    (hs : w.client.socket = .connected ∨ w.client.socket = .ended) :
    w.client.state = .sending ∧ w.client.socket ≠ .connecting := by
  rcases hs with hs | hs
  · exact ⟨h.sending.mpr (by simp [hs]), by simp [hs]⟩
  · exact ⟨h.sending.mpr (by simp [hs]), by simp [hs]⟩

theorem consumeResponse (h : w.Inv)
    (hs : w.client.socket = .connected ∨ w.client.socket = .ended) (received : Received) :
    (w.consumeResponse received).Inv := by
  obtain ⟨hstate, hne⟩ := h.sending_of_readable hs
  unfold World.consumeResponse
  split
  · exact h
  · exact h.fail (h.enabled (by simp [hstate])) (h.begins_of_sending hstate) _
  · rename_i sequence _
    have hnext : ({ w with client.lastAcceptedSequence := (
        max w.client.lastAcceptedSequence sequence) } : World ρ).Inv := { h with }
    exact hnext.complete hstate hne

theorem disconnected (h : w.Inv) (hs : w.client.socket = .connected) :
    ({ w with client.socket := .ended, queue := w.queue ++ [.check w.begun] } : World ρ).Inv ∧
      ({ w with client.socket := .ended, queue := w.queue ++ [.check w.begun] } : World ρ).line
        = w.line := by
  have hstate : w.client.state = .sending := h.sending.mpr (by simp [hs])
  have hq : ({ w with client.socket := .ended, queue := w.queue ++ [.check w.begun] } :
      World ρ).begins = w.begins := by
    simp [World.begins, List.filterMap_append]
  have hwait : ({ w with client.socket := .ended, queue := w.queue ++ [.check w.begun] } :
      World ρ).waiting = w.waiting := by
    rw [waiting_of_not_connecting Socket.noConfusion, waiting_of_not_connecting (by simp [hs]), hq]
  have hline : ({ w with client.socket := .ended, queue := w.queue ++ [.check w.begun] } :
      World ρ).line = w.line := by
    rw [line, line, hwait]
  refine ⟨?_, hline⟩
  exact {
    order := by rw [hline]; exact h.order
    below := by rw [hline]; exact h.below
    waiting := by rw [hwait]; exact h.waiting
    generations := h.generations
    interrupted := h.interrupted
    begins := by rw [hq]; exact h.begins
    single := by rw [hq]; exact h.single
    pending := h.pending
    enabled := h.enabled
    sending := by simpa using hstate
    timeout := h.timeout
    cooldown := h.cooldown
    checks := by
      intro request hmem
      rcases List.mem_append.mp hmem with hmem | hmem
      · exact ⟨(h.checks request hmem).1, fun _ => Socket.noConfusion⟩
      · obtain ⟨⟩ := List.mem_singleton.mp hmem
        exact ⟨Nat.le_refl _, fun _ => Socket.noConfusion⟩ }

/-! ### Retries and callbacks -/

theorem closed_of_not_sending (h : w.Inv) (hs : w.client.state ≠ .sending) :
    w.client.socket = .closed := by
  by_contra hne
  exact hs (h.sending.mpr hne)

theorem ready (h : w.Inv) (hs : w.client.state = .error) :
    w.ready.Inv ∧ w.ready.begins = [] ∧ w.line = w.ready.line ++ w.client.pending.toList := by
  have hq : w.begins = [] := h.begins_of_not_ready (by simp [hs])
  have hq' : w.ready.begins = [] := hq
  have hclosed : w.client.socket = .closed := h.closed_of_not_sending (by simp [hs])
  have hclosed' : w.ready.client.socket = .closed := hclosed
  have hwait : w.ready.waiting = [] := by
    rw [waiting_of_not_connecting (by simp [hclosed']), hq']
    rfl
  have hline : w.line = w.ready.line ++ w.client.pending.toList := by
    rw [line, line, hwait, waiting_of_not_connecting (by simp [hclosed]), hq]
    simp [World.ready]
  have hsub : List.Sublist w.ready.line w.line := by
    rw [hline]
    exact List.sublist_append_left _ _
  refine ⟨?_, hq', hline⟩
  exact {
    order := h.order.sublist (hsub.map _)
    below := fun e hmem => h.below e (hsub.subset hmem)
    waiting := by simp [hwait]
    generations := h.generations
    interrupted := h.interrupted
    begins := fun hne => absurd hq' hne
    single := h.single
    pending := fun hpend => absurd rfl hpend
    enabled := fun _ => h.enabled (by simp [hs])
    sending := by simp [World.ready, InputClient.setState, hclosed]
    timeout := fun ht => by
      have hsending := h.timeout ht
      simp [hs] at hsending
    cooldown := by simp [World.ready, InputClient.setState]
    checks := h.checks }

/-- After the cooldown the event that waits is begun, if there is one. -/
theorem retry (h : w.Inv) (hc : w.client.retryCooldown = true) :
    w.retry.Inv ∧ w.retry.line = w.line := by
  have herror : w.client.state = .error := h.cooldown.mp hc
  have he : w.client.enabled = true := h.enabled (by simp [herror])
  obtain ⟨hready, hq, hline⟩ := h.ready herror
  unfold World.retry
  rw [if_pos he]
  cases hp : w.client.pending with
  | none => exact ⟨hready, by simp [hline, hp]⟩
  | some next =>
    have hsent : w.ready.line = w.sent.map (·.event) := by
      have hne : w.ready.client.socket ≠ .connecting := by
        simp [hready.closed_of_not_sending (by simp [World.ready, InputClient.setState])]
      rw [line, waiting_of_not_connecting hne, hq]
      simp [World.ready, InputClient.setState]
    have hnext : w.line = w.sent.map (·.event) ++ [next] := by simp [hline, hsent, hp]
    have hmem : next ∈ w.waiting := List.mem_append_right _ (by simp [hp])
    refine ⟨begin hq rfl ?_ rfl he h.interrupted ?_ ?_ (h.waiting next hmem) h.generations
      fun request hmem => (h.checks request hmem).1, ?_⟩
    · simp [World.ready, InputClient.setState]
    · exact hnext ▸ h.order
    · exact hnext ▸ h.below
    · rw [line_begin hq rfl, hnext]
      rfl

theorem erase (h : w.Inv) {place : Nat} {request : Nat}
    (hplace : w.queue[place]? = some (.check request)) :
    (w.dequeue place).Inv ∧
      (w.dequeue place).line = w.line := by
  have hq : (w.dequeue place).begins = w.begins := by
    rw [begins_erase hplace]
  have hwait : (w.dequeue place).waiting = w.waiting := by
    rw [World.waiting, World.waiting, hq]
    rfl
  have hline : (w.dequeue place).line = w.line := by
    rw [line, line, hwait, dequeue_sent]
  refine ⟨?_, hline⟩
  exact {
    order := by rw [hline]; exact h.order
    below := by rw [hline]; exact h.below
    waiting := by rw [hwait]; exact h.waiting
    generations := h.generations
    interrupted := h.interrupted
    begins := by rw [hq]; exact h.begins
    single := by rw [hq]; exact h.single
    pending := h.pending
    enabled := h.enabled
    sending := h.sending
    timeout := h.timeout
    cooldown := h.cooldown
    checks := fun r hmem => h.checks r (List.mem_of_mem_eraseIdx hmem) }

/-- The check of the current request fails it when its answer is still missing. -/
theorem runCheck (h : w.Inv) {place request : Nat}
    (hplace : w.queue[place]? = some (.check request))
    (hprompt : w.client.state = .sending → request = w.begun) :
    ((w.dequeue place).runCallback (.check request)).Inv ∧
      ((w.dequeue place).runCallback (.check request)).line
        = w.line := by
  obtain ⟨herase, hline⟩ := h.erase hplace
  unfold World.runCallback
  simp only
  split
  · rename_i hs
    have hq := herase.begins_of_sending hs
    have hne : (w.dequeue place).client.socket ≠ .connecting :=
      (h.checks request (List.mem_of_getElem? hplace)).2 (hprompt hs)
    refine ⟨herase.fail (herase.enabled (by rw [hs]; simp)) hq _, ?_⟩
    rw [← hline]
    exact line_fail hne _
  · exact ⟨herase, hline⟩

/-- The start of an event is the only one queued. -/
theorem runBegin (h : w.Inv) {place : Nat} {next : Event ρ}
    (hplace : w.queue[place]? = some (.begin next)) :
    ((w.dequeue place).runCallback (.begin next)).Inv ∧
      ((w.dequeue place).runCallback (.begin next)).line
        = w.line := by
  obtain ⟨hq, hnone⟩ := begins_run h.single hplace
  obtain ⟨hs, hp⟩ := h.begins (by simp [hq])
  have hclosed := h.closed_of_not_sending (by simp [hs])
  have hwait : w.waiting = [next] := by
    rw [waiting_of_not_connecting (by simp [hclosed]), hq, hp]
    rfl
  have hline : w.line = w.sent.map (·.event) ++ [next] := by rw [line, hwait]
  have hcooldown : w.client.retryCooldown = false := by
    simpa [hs] using h.cooldown
  refine ⟨begin hnone hp (by simp [hs]) hcooldown (h.enabled (by simp [hs])) h.interrupted
    (hline ▸ h.order) (hline ▸ h.below) (h.waiting next (by simp [hwait])) h.generations
    fun request hmem => (h.checks request (List.mem_of_mem_eraseIdx hmem)).1, ?_⟩
  rw [hline]
  exact line_begin hnone hp next

theorem run (h : w.Inv) {place : Nat} (hc : w.Prompt (.run place)) :
    (w.step inUnit (.run place)).Inv ∧ (w.step inUnit (.run place)).line = w.line := by
  unfold step
  simp only
  split
  · exact ⟨h, rfl⟩
  · rename_i callback hplace
    cases callback with
    | begin next => exact h.runBegin hplace
    | check request =>
      refine h.runCheck hplace ?_
      simpa [Prompt, Timely, hplace] using hc

theorem step (h : w.Inv) (s : Step ρ) (hc : w.Prompt s) : (w.step inUnit s).Inv := by
  cases s with
  | sendPointer phase x y =>
    unfold World.step World.sendPointer
    simp only
    split
    · rename_i he
      split
      · exact h.offer he (hc he) phase x y
      · exact h.fail he (hc he) _
    · exact h
  | setSocketPath path =>
    unfold World.step
    simp only
    split
    · exact h
    · exact h.reset (hc ‹_›)
  | setDisplayGeneration generation =>
    unfold World.step
    simp only
    split
    · exact h
    · exact h.reset (hc ‹_›)
  | connected written =>
    unfold World.step
    simp only
    split
    · exact h.sendRequest ‹_› written
    · exact h
  | readyRead received =>
    unfold World.step
    simp only
    split
    · exact h.consumeResponse ‹_› received
    · exact h
  | errorOccurred peerClosed error =>
    unfold World.step
    simp only
    split
    · rename_i hs
      exact h.fail (h.enabled (by simp [hs.1])) (h.begins_of_sending hs.1) _
    · exact h
  | disconnected =>
    unfold World.step
    simp only
    split
    · rename_i hs
      rw [if_pos (h.sending.mpr (by simp [hs]))]
      exact (h.disconnected hs).1
    · exact h
  | requestTimedOut =>
    unfold World.step
    simp only
    split
    · have hs := h.timeout ‹_›
      exact h.fail (h.enabled (by simp [hs])) (h.begins_of_sending hs) _
    · exact h
  | cooledDown =>
    unfold World.step
    simp only
    split
    · exact (h.retry ‹_›).1
    · exact h
  | run place => exact (h.run hc).1

theorem ordered (h : w.Inv) : w.Ordered where
  order := by
    have := h.order.sublist (sent_sublist.map _)
    rwa [List.map_map] at this
  interrupted := h.interrupted
  generations := h.generations

/-! ### The last event -/

/-- Answers take nothing from the line. -/
theorem line_step (h : w.Inv) {s : Step ρ} (hc : w.Prompt s) (ha : w.Answering s) :
    (w.step inUnit s).line = w.line := by
  cases s with
  | connected written =>
    obtain ⟨rfl, hid⟩ := ha
    unfold World.step
    simp only
    split
    · rename_i hs
      have hnext : ({ w with client.requestId := w.client.requestId + 1 } : World ρ).Inv :=
        { h with }
      rw [World.sendRequest, if_neg (by omega)]
      exact hnext.line_write hs
    · rfl
  | readyRead received =>
    unfold World.step
    simp only
    split
    · rename_i hs
      obtain ⟨hstate, hne⟩ := h.sending_of_readable hs
      unfold World.consumeResponse
      split
      · rfl
      · rename_i hread
        simp [Answering, hread, Except.isOk, Except.toBool] at ha
      · rename_i sequence _
        have hnext : ({ w with client.lastAcceptedSequence := (
            max w.client.lastAcceptedSequence sequence) } : World ρ).Inv := { h with }
        exact hnext.line_complete hstate hne
    · rfl
  | disconnected =>
    unfold World.step
    simp only
    split
    · rename_i hs
      rw [if_pos (h.sending.mpr (by simp [hs]))]
      exact (h.disconnected hs).2
    · rfl
  | cooledDown =>
    unfold World.step
    simp only
    split
    · exact (h.retry ‹_›).2
    · rfl
  | run place => exact (h.run hc).2
  | sendPointer | setSocketPath | setDisplayGeneration | errorOccurred | requestTimedOut =>
    exact ha.elim

/-- When nothing is left to happen, nothing waits. -/
theorem waiting_of_idle (h : w.Inv) (hi : w.Idle) : w.waiting = [] := by
  have hsending : w.client.state ≠ .sending := fun hs => h.sending.mp hs hi.socket
  have herror : w.client.state ≠ .error := by
    intro hs
    have := h.cooldown.mpr hs
    simp [hi.retryCooldown] at this
  rw [waiting_of_not_connecting (by simp [hi.socket]), h.pending_none hsending herror]
  simp [World.begins, hi.queue]

end Inv

/-! ### How long it takes -/

/-- What a socket still has to go through. -/
def socketEffort : Socket → Nat
  | .closed => 0
  | .connecting => 6
  | .connected => 5
  | .ended => 1

def callbackEffort : Callback ρ → Nat
  | .begin _ => 8
  | .check _ => 3

/-- The answers and callbacks that are still to come, at most. -/
def effort (w : World ρ) : Nat :=
  socketEffort w.client.socket + 8 * w.client.pending.toList.length
    + 2 * w.client.retryCooldown.toNat + (w.queue.map callbackEffort).sum

theorem effort_erase {place : Nat} {callback : Callback ρ}
    (hplace : w.queue[place]? = some callback) :
    (w.queue.map callbackEffort).sum
      = ((w.dequeue place).queue.map callbackEffort).sum + callbackEffort callback := by
  conv_lhs => rw [queue_split hplace]
  simp [dequeue, List.eraseIdx_eq_take_drop_succ]
  omega

theorem effort_write (hs : w.client.socket = .connecting) : w.write.effort < w.effort := by
  simp [effort, write, hs, socketEffort]

theorem effort_complete (hs : w.client.socket = .connected ∨ w.client.socket = .ended) :
    w.completeAndContinue.effort < w.effort := by
  have hsocket : 1 ≤ socketEffort w.client.socket := by
    rcases hs with hs | hs <;> simp [hs, socketEffort]
  have hqueue : ((w.client.pending.toList.map Callback.begin).map callbackEffort).sum
      = 8 * w.client.pending.toList.length := by
    cases w.client.pending <;> simp [callbackEffort]
  have hafter : w.completeAndContinue.effort
      = (w.queue.map callbackEffort).sum + 8 * w.client.pending.toList.length := by
    rw [← hqueue]
    simp [effort, completeAndContinue, InputClient.complete, InputClient.setState, socketEffort]
  rw [hafter, effort]
  omega

theorem effort_retry (hc : w.client.retryCooldown = true) (he : w.client.enabled = true) :
    w.retry.effort < w.effort := by
  unfold retry
  rw [if_pos he]
  cases hp : w.client.pending with
  | none => simp [effort, ready, InputClient.setState, hp, hc]
  | some next =>
    simp [effort, ready, begin, InputClient.begin, InputClient.setState, hp, hc, socketEffort]

theorem effort_begin (event : Event ρ) : (w.begin event).effort ≤ w.effort + 6 := by
  simp [effort, begin, InputClient.begin, InputClient.setState, socketEffort]
  omega

theorem effort_fail (m : String) : (w.fail m).effort ≤ w.effort + 2 := by
  simp [effort, fail, InputClient.fail, InputClient.setState, socketEffort]
  omega

theorem effort_run {place : Nat} {callback : Callback ρ}
    (hplace : w.queue[place]? = some callback) :
    ((w.dequeue place).runCallback callback).effort < w.effort := by
  have herase : w.effort = (w.dequeue place).effort + callbackEffort callback := by
    rw [effort, effort, effort_erase hplace, dequeue_client]
    omega
  cases callback with
  | begin next =>
    have hle := effort_begin (w := w.dequeue place) next
    simp only [callbackEffort] at herase
    simp only [runCallback]
    omega
  | check request =>
    simp only [callbackEffort] at herase
    simp only [runCallback]
    split
    · have hle := effort_fail (w := w.dequeue place)
        "The wallpaper service closed the pointer request before a complete response."
      omega
    · omega

/-- Whatever comes from the service or the event loop brings the end nearer. -/
theorem effort_step (h : w.Inv) {s : Step ρ} (ha : w.Answering s) (hp : w.Possible s) :
    (w.step inUnit s).effort < w.effort := by
  cases s with
  | connected written =>
    obtain ⟨rfl, hid⟩ := ha
    have hs : w.client.socket = .connecting := hp
    rw [step, if_pos hs, sendRequest, if_neg (by omega)]
    exact effort_write (w := { w with client.requestId := w.client.requestId + 1 }) hs
  | readyRead received =>
    obtain ⟨hs, hread⟩ := hp
    rw [step, if_pos hs, consumeResponse]
    split
    · exact absurd ‹_› hread
    · rename_i hread
      simp [Answering, hread, Except.isOk, Except.toBool] at ha
    · rename_i sequence _
      exact effort_complete (w := { w with client.lastAcceptedSequence := (
        max w.client.lastAcceptedSequence sequence) }) hs
  | disconnected =>
    have hs : w.client.socket = .connected := hp
    rw [step, if_pos hs, if_pos (h.sending.mpr (by simp [hs]))]
    simp [effort, hs, socketEffort, callbackEffort]
    omega
  | cooledDown =>
    have hc : w.client.retryCooldown = true := hp
    rw [step, if_pos hc]
    exact effort_retry hc (h.enabled (by simp [h.cooldown.mp hc]))
  | run place =>
    have hlt : place < w.queue.length := hp
    rw [step, List.getElem?_eq_getElem hlt]
    exact effort_run (List.getElem?_eq_getElem hlt)
  | sendPointer | setSocketPath | setDisplayGeneration | errorOccurred | requestTimedOut =>
    exact ha.elim

/-- Something can happen until nothing is left. -/
theorem progress (h : w.Inv) (hi : ¬ w.Idle) (hid : w.client.requestId < maxId) :
    ∃ s : Step ρ, w.Prompt s ∧ w.Answering s ∧ w.Possible s := by
  have reply (hs : w.client.socket = .connected ∨ w.client.socket = .ended) :
      ∃ s : Step ρ, w.Prompt s ∧ w.Answering s ∧ w.Possible s := by
    refine ⟨.readyRead (.reply 1 w.client.requestId true 1), trivial, ?_, hs, ?_⟩
    · simp [Answering, InputClient.readResponse, Except.isOk, Except.toBool]
    · simp [InputClient.readResponse]
  cases hs : w.client.socket with
  | connecting => exact ⟨.connected true, trivial, ⟨rfl, hid⟩, hs⟩
  | connected => exact reply (Or.inl hs)
  | ended => exact reply (Or.inr hs)
  | closed =>
    by_cases hc : w.client.retryCooldown = true
    · exact ⟨.cooledDown, trivial, trivial, hc⟩
    · have hq : w.queue ≠ [] := fun hq => hi ⟨hs, by simpa using hc, hq⟩
      refine ⟨.run 0, ?_, trivial, List.length_pos_iff.mpr hq⟩
      have hsending : w.client.state ≠ .sending := fun hst => h.sending.mp hst hs
      unfold Prompt Timely
      simp only
      split
      · exact fun hst => absurd hst hsending
      · trivial
      · trivial

/-! ## Every run -/

/-- When the service answers from now on and nothing more is offered: an answer or a
callback is always possible until nothing is left, that takes no more steps than `effort`
says, and the event of this number is then the last one sent. -/
structure Ends (inUnit : ρ → Bool) (w : World ρ) (serial : Nat) (rest : List (Step ρ)) : Prop where
  progress : ¬ (run (step inUnit) w rest).Idle →
    (run (step inUnit) w rest).client.requestId < maxId →
    ∃ s : Step ρ, (run (step inUnit) w rest).Prompt s ∧ (run (step inUnit) w rest).Answering s ∧
      (run (step inUnit) w rest).Possible s
  bounded : Along (step inUnit) Possible w rest → rest.length ≤ w.effort
  last : (run (step inUnit) w rest).Idle →
    (run (step inUnit) w rest).sent.getLast?.map (·.event.serial) = some serial

theorem line_run (h : w.Inv) {rest : List (Step ρ)}
    (hrest : Along (step inUnit) (fun w s => w.Prompt s ∧ w.Answering s) w rest) :
    (run (step inUnit) w rest).line = w.line := by
  induction rest generalizing w with
  | nil => rfl
  | cons s rest ih =>
    obtain ⟨⟨hc, ha⟩, hrest⟩ := hrest
    rw [run_cons, ih (h.step s hc) hrest, h.line_step hc ha]

theorem length_le_effort (h : w.Inv) {rest : List (Step ρ)}
    (hrest : Along (step inUnit) (fun w s => w.Prompt s ∧ w.Answering s) w rest)
    (hp : Along (step inUnit) Possible w rest) : rest.length ≤ w.effort := by
  induction rest generalizing w with
  | nil => exact Nat.zero_le _
  | cons s rest ih =>
    obtain ⟨⟨hc, ha⟩, hrest⟩ := hrest
    obtain ⟨hs, hp⟩ := hp
    have hlt : (w.step inUnit s).effort < w.effort := effort_step h ha hs
    have hle := ih (h.step s hc) hrest hp
    simp only [List.length_cons]
    omega

theorem inv_run (h : w.Inv) {steps : List (Step ρ)}
    (hsteps : Along (step inUnit) Prompt w steps) : (run (step inUnit) w steps).Inv :=
  invariant_run (I := Inv) (fun _ s h hc => h.step s hc) h hsteps

theorem ends (h : w.Inv) {serial : Nat} (hlast : w.line.getLast?.map (·.serial) = some serial)
    {rest : List (Step ρ)}
    (hrest : Along (step inUnit) (fun w s => w.Prompt s ∧ w.Answering s) w rest) :
    Ends inUnit w serial rest := by
  have hend : (run (step inUnit) w rest).Inv := inv_run h (hrest.mono fun _ _ hs => hs.1)
  refine ⟨progress hend, length_le_effort h hrest, fun hi => ?_⟩
  rw [← hlast, ← line_run h hrest, line, hend.waiting_of_idle hi, List.append_nil,
    List.getLast?_map, Option.map_map]
  rfl

/-- The event just offered is the last in line. -/
theorem last_offered (h : w.Inv) {phase : String} {x y : ρ} (he : w.client.enabled = true)
    (hv : valid inUnit phase x y = true) (hb : w.begins = []) :
    (w.step inUnit (.sendPointer phase x y)).line.getLast?.map (·.serial) = some w.offered := by
  obtain ⟨events, hline⟩ := h.offer_line hb phase x y
  rw [step, sendPointer, if_pos he, if_pos hv, hline]
  simp [event]

/-- **Pointer ordering.**  In a run in which no event is offered and the configuration is
not changed while the start of an event is queued, and the check of a closed socket does
not run during a later request, events are sent once, in order, uninterrupted and with the
generation of their offer; and when the service answers, the last event offered is the last
one sent. -/
theorem pointer_ordered (inUnit : ρ → Bool) (steps : List (Step ρ))
    (h : Along (step inUnit) Prompt start steps) :
    (run (step inUnit) start steps).Ordered ∧
      ∀ phase x y, (run (step inUnit) start steps).client.enabled = true →
        valid inUnit phase x y = true →
        (run (step inUnit) start steps).Prompt (.sendPointer phase x y) →
        ∀ rest,
          Along (step inUnit) (fun w s => w.Prompt s ∧ w.Answering s)
            ((run (step inUnit) start steps).step inUnit (.sendPointer phase x y)) rest →
          Ends inUnit ((run (step inUnit) start steps).step inUnit (.sendPointer phase x y))
            (run (step inUnit) start steps).offered rest := by
  have hinv : (run (step inUnit) start steps).Inv := inv_run Inv.start h
  refine ⟨hinv.ordered, ?_⟩
  intro phase x y he hv hc rest hrest
  exact ends (hinv.step _ hc) (last_offered hinv he hv (hc he)) hrest

/-- Of two moves the first is answered, and the start of the second queued. -/
def twoMoves : List (Step Nat) :=
  [.setSocketPath "/run/kwe", .setDisplayGeneration 1, .sendPointer "move" 0 0, .connected true,
    .sendPointer "move" 0 1, .readyRead (.reply 1 1 true 1)]

def after (steps : List (Step Nat)) : World Nat :=
  run (step fun v => decide (v ≤ 1)) start (twoMoves ++ steps)

theorem pointer_ordered_twoMoves :
    (after [.run 0]).Ordered ∧
      (after [.run 0]).client.enabled = true ∧
      valid (fun v => decide (v ≤ 1)) "leave" 1 1 = true ∧
      Ends (fun v => decide (v ≤ 1))
        ((after [.run 0]).step (fun v => decide (v ≤ 1)) (.sendPointer "leave" 1 1)) 2
        [.connected true, .readyRead (.reply 1 2 true 2), .run 0, .connected true,
          .readyRead (.reply 1 3 true 3)] := by
  have h := pointer_ordered (fun v => decide (v ≤ 1)) (twoMoves ++ [.run 0]) (by decide)
  refine ⟨h.1, by decide, by decide, h.2 "leave" 1 1 (by decide) (by decide) (by decide) _ ?_⟩
  decide

/-- A third move, while the start of the second is queued, is sent before it and ended by
it; and a new generation at that time is sent with the second. -/
theorem overtaken :
    ¬ (after [.sendPointer "move" 1 1, .connected true, .run 0, .connected true]).Ordered ∧
      ((after [.sendPointer "move" 1 1, .connected true, .run 0, .connected true]).sent.map
        (·.event.serial)) = [0, 2, 1] ∧
      ¬ (after [.setDisplayGeneration 2, .run 0, .connected true]).Ordered ∧
      ((after [.setDisplayGeneration 2, .run 0, .connected true]).sent.map
        fun s => (s.event.generation, s.generation)) = [(1, 1), (1, 2)] := by
  refine ⟨?_, by decide, ?_, by decide⟩
  · intro h
    have horder := h.order
    revert horder
    decide
  · intro h
    have hgen := h.generations
    revert hgen
    decide

end World

end Kwe.Display.Pointer

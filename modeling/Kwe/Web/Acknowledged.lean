import Kwe.Web.Screencast

/-!
The screencast acknowledged: the browser stops sending frames while three of
them wait for an acknowledgement.

* `step_effect`: what a step does to events and acknowledgements;
* `screencast_acknowledged`: the runs in which every frame is acknowledged, and the
  worker never publishes while the browser has stopped.
-/

namespace Kwe.Web

open Foundation Foundation.Collections Cdp

/-! ## What is asked of a run -/

/-- A screencast frame of the session. -/
def isFrame (session : String) (e : Event) : Bool :=
  e.method = "Page.screencastFrame" && e.sessionId = some session

/-- The frames among events, by the session ids that they carry. -/
def frames (session : String) (events : List Event) : List (Option Json) :=
  (events.filter (isFrame session)).map frameSession

/-- The frame that a request acknowledges. -/
def Request.ack? (session : String) (r : Request) : Option Json :=
  if r.sessionId = some session ∧ r.method = "Page.screencastFrameAck" then
    getField r.params "sessionId"
  else none

/-- The frames acknowledged. -/
def acks (session : String) (written : List Request) : List Json :=
  written.filterMap (Request.ack? session)

namespace World

def Left (w : World) : Prop := ∃ reason, w.stage = .left reason

/-- The worker is not attached to another session. -/
def Serves (w : World) (session : String) : Prop := w.session = none ∨ w.session = some session

/-- The frames received are, in order, those acknowledged by one request each
and those still in the queue. -/
def Balanced (session : String) (w : World) : Prop :=
  frames session w.received = (acks session w.written).map some ++ frames session w.conn.events

/-- **Acknowledged.**  As long as the worker stays, every frame of its session is
acknowledged or waits in the queue. -/
def Acknowledged (session : String) (w : World) : Prop :=
  ¬ w.Left → w.Serves session → w.Balanced session

def unacknowledged (session : String) (w : World) : Nat :=
  (frames session w.received).length - (acks session w.written).length

/-- **Stalled.**  The worker publishes while the browser has stopped. -/
structure Stalled (session : String) (w : World) : Prop where
  publishing : w.stage = .publish
  attached : w.session = some session
  unacknowledged : 3 ≤ w.unacknowledged session

end World

/-- A poll with this queue loses no frame of the session: none falls out of the
full queue, and none comes after a message that cannot be read. -/
def KeepsFrames (session : String) (queue : List Event) (polled : Polled) : Prop :=
  ∀ e ∈ lostAll defaultEventQueueLimit queue ((routedOf polled).filterMap Message.event?) ++
    lostEvents polled, isFrame session e = false

/-- **Sound steps.**  No poll loses a frame, unless its failure ends the worker;
and a frame that is taken from the queue carries a session id, while fewer than
64 requests are in flight and its acknowledgement can be written. -/
def World.Sound (session : String) (w : World) (m : Move) : Prop :=
  w.Serves session →
  match w.stage, m with
  | .await _ q, .wait false polled =>
    KeepsFrames session w.conn.events polled ∨ q.required = true ∧ ¬ Readable polled
  | .findPoll, .poll false polled => KeepsFrames session w.conn.events polled ∨ ¬ Readable polled
  | .startPoll, .poll false polled => KeepsFrames session w.conn.events polled ∨ ¬ Readable polled
  | .poll, .poll _ polled => KeepsFrames session w.conn.events polled ∨ ¬ Readable polled
  | .drain _, .next sent => ∀ e, w.conn.events.head? = some e → isFrame session e = true →
    (frameSession e).isSome = true ∧ w.conn.pending.length < maxInFlightRequests ∧ sent = .ok ()
  | _, _ => True

/-! ## Frames -/

theorem frames_append (session : String) (events events' : List Event) :
    frames session (events ++ events') = frames session events ++ frames session events' := by
  rw [frames, List.filter_append, List.map_append]
  rfl

theorem frames_eq_nil {session : String} {events : List Event} :
    frames session events = [] ↔ ∀ e ∈ events, isFrame session e = false := by
  rw [frames, List.map_eq_nil_iff, List.filter_eq_nil_iff]
  simp only [Bool.not_eq_true]

theorem frames_cons (session : String) (e : Event) (events : List Event) :
    frames session (e :: events) =
      (if isFrame session e then [frameSession e] else []) ++ frames session events := by
  unfold frames
  rw [List.filter_cons]
  split
  next => rfl
  next => rfl

theorem acks_append (session : String) (written written' : List Request) :
    acks session (written ++ written') = acks session written ++ acks session written' :=
  List.filterMap_append

/-- A list between two others is the whole when these are empty. -/
theorem append_append_eq_self {α : Type*} {as bs cs : List α} :
    as ++ (bs ++ cs) = bs ↔ as = [] ∧ cs = [] := by
  constructor
  · intro h
    have hlength := congrArg List.length h
    rw [List.length_append, List.length_append] at hlength
    exact ⟨List.eq_nil_of_length_eq_zero (by omega), List.eq_nil_of_length_eq_zero (by omega)⟩
  · rintro ⟨rfl, rfl⟩
    rw [List.append_nil, List.nil_append]

/-! ## What a step does -/

/-- Nothing happened to the events and the acknowledgements of a session. -/
structure Same (session : String) (w w' : World) : Prop where
  received : w'.received = w.received
  queue : w'.conn.events = w.conn.events
  acks : acks session w'.written = acks session w.written

theorem Same.trans {session : String} {w w' w'' : World} (h : Same session w w')
    (h' : Same session w' w'') : Same session w w'' :=
  ⟨h'.received.trans h.received, h'.queue.trans h.queue, h'.acks.trans h.acks⟩

theorem sendRequest_rest (c : Connection) (sessionId : Option String) (sent : Except String Unit) :
    (c.sendRequest sessionId sent).1.events = c.events := by
  unfold Connection.sendRequest
  split
  next => rfl
  next =>
    dsimp only
    split
    next => rfl
    next => rfl

theorem sendRequest_ok_iff (c : Connection) (sessionId : Option String) (sent : Except String Unit) :
    (∃ id, (c.sendRequest sessionId sent).2 = .ok id) ↔
      c.pending.length < maxInFlightRequests ∧ sent = .ok () := by
  unfold Connection.sendRequest
  split
  next h => exact iff_of_false (fun ⟨_, h⟩ => by cases h) fun ⟨hlt, _⟩ => by omega
  next h =>
    dsimp only
    split
    next => exact iff_of_false (fun ⟨_, h⟩ => by cases h) fun ⟨_, h⟩ => by cases h
    next => exact iff_of_true ⟨_, rfl⟩ ⟨by omega, rfl⟩

theorem takeResponse_rest (c : Connection) (id : UInt32) :
    (c.takeResponse id).1.events = c.events := by
  cases htake : c.takeResponse id with
  | mk conn answer =>
    cases answer with
    | none => exact congrArg _ (takeResponse_none htake)
    | some r =>
      obtain ⟨slot, rest, -, -, -, rfl⟩ := takeResponse_some htake
      rfl

theorem discardPending_rest (c : Connection) (id : UInt32) :
    (c.discardPending id).events = c.events := by
  rcases discardPending_cases c id with ⟨-, heq⟩ | ⟨slot, rest, -, -, heq⟩
  · rw [heq]
  · rw [heq]

/-! ### Answers -/

/-- An answer does nothing to connection, requests and events. -/
theorem answered_rest (w : World) (cfg : Config) (q : Question) (result : Except Error Response) :
    (w.answered cfg q result).conn = w.conn ∧ (w.answered cfg q result).written = w.written ∧
      (w.answered cfg q result).received = w.received := by
  cases q with
  | ack starting e session =>
    unfold World.answered World.acked World.failDecode
    dsimp only
    repeat' split
    all_goals exact ⟨rfl, rfl, rfl⟩
  | pointer params => exact ⟨rfl, rfl, rfl⟩
  | audio expression => exact ⟨rfl, rfl, rfl⟩
  | _ =>
    unfold World.answered World.leave
    dsimp only
    repeat' split
    all_goals exact ⟨rfl, rfl, rfl⟩

theorem answered_same (session : String) (w : World) (cfg : Config) (q : Question)
    (result : Except Error Response) : Same session w (w.answered cfg q result) := by
  obtain ⟨hconn, hwritten, hreceived⟩ := answered_rest w cfg q result
  exact ⟨hreceived, by rw [hconn], by rw [hwritten]⟩

/-- The worker leaves when a request fails that it needs, and only then. -/
theorem answered_error (w : World) (cfg : Config) (q : Question) (e : Error) :
    (w.answered cfg q (.error e)).Left ↔ q.required = true := by
  cases q with
  | ack starting e session => exact iff_of_false (fun ⟨_, h⟩ => by cases h) Bool.false_ne_true
  | pointer params => exact iff_of_false (fun ⟨_, h⟩ => by cases h) Bool.false_ne_true
  | audio expression => exact iff_of_false (fun ⟨_, h⟩ => by cases h) Bool.false_ne_true
  | _ => exact iff_of_true ⟨_, rfl⟩ rfl

/-! ### Where the worker is attached -/

/-- A request of the page. -/
def Question.ofPage : Question → Bool
  | .getTargets | .attachToTarget _ => false
  | _ => true

/-- The session changes with the attachment only. -/
theorem answered_session (w : World) (cfg : Config) {q : Question} (result : Except Error Response)
    (h : q.ofPage = true) : (w.answered cfg q result).session = w.session := by
  cases q with
  | getTargets => cases h
  | attachToTarget targetId => cases h
  | ack starting e session =>
    unfold World.answered World.acked World.failDecode
    dsimp only
    repeat' split
    all_goals rfl
  | pointer params => rfl
  | audio expression => rfl
  | _ =>
    unfold World.answered World.leave
    dsimp only
    split
    next => rfl
    next => rfl

/-- A stage after the attachment. -/
def Stage.attached : Stage → Bool
  | .ask q | .await _ q | .take _ q => q.ofPage
  | .findPoll | .left _ => false
  | _ => true

/-- There is a session exactly after the attachment, the worker publishes when
it has drained the queue, and it acknowledges a frame as it takes it. -/
structure World.Shaped (w : World) : Prop where
  attached : w.Left ∨ w.session.isSome = w.stage.attached
  drained : w.stage = .publish → w.conn.events = []
  asked : ∀ q, w.stage = .ask q → q.method ≠ "Page.screencastFrameAck"

/-- A stage that only the attachment matters for. -/
def Stage.plain : Stage → Bool
  | .publish | .ask (.ack _ _ _) => false
  | _ => true

theorem shaped_of_plain {w : World} (hattached : w.Left ∨ w.session.isSome = w.stage.attached)
    (hplain : w.stage.plain = true) : w.Shaped := by
  refine ⟨hattached, fun hstage => ?_, fun q hstage hq => ?_⟩
  · rw [hstage] at hplain
    cases hplain
  · rw [hstage] at hplain
    cases q with
    | ack starting e session => cases hplain
    | _ => exact absurd hq (by simp [Question.method])

theorem shaped_of_left {w : World} (h : w.Left) : w.Shaped := by
  refine shaped_of_plain (.inl h) ?_
  obtain ⟨reason, h⟩ := h
  rw [h]
  rfl

theorem shaped_of_stage {w : World} (hattached : w.session.isSome = w.stage.attached)
    (hplain : w.stage.plain = true) : w.Shaped := shaped_of_plain (.inr hattached) hplain

/-- Where the worker is, there is a session or none. -/
theorem World.Shaped.at {w : World} (h : w.Shaped) {stage : Stage} (hstage : w.stage = stage)
    (hleft : ∀ reason, stage ≠ .left reason) : w.session.isSome = stage.attached := by
  rcases h.attached with ⟨reason, hreason⟩ | hattached
  · exact absurd (hstage.symm.trans hreason) (hleft reason)
  · rw [hattached, hstage]

theorem answered_shaped {w : World} (cfg : Config) {q : Question} (result : Except Error Response)
    (h : w.session.isSome = q.ofPage) : (w.answered cfg q result).Shaped := by
  cases q with
  | getTargets =>
    unfold World.answered
    dsimp only
    split
    next => exact shaped_of_left ⟨_, rfl⟩
    next =>
      split
      next => exact shaped_of_stage h rfl
      next => exact shaped_of_left ⟨_, rfl⟩
      next => exact shaped_of_stage h rfl
  | attachToTarget targetId =>
    unfold World.answered
    dsimp only
    split
    next => exact shaped_of_left ⟨_, rfl⟩
    next => exact shaped_of_stage rfl rfl
  | ack starting e session =>
    unfold World.answered World.acked World.failDecode
    dsimp only
    split
    next => exact shaped_of_stage h rfl
    next =>
      split
      next => exact shaped_of_stage h rfl
      next =>
        split
        next => exact shaped_of_stage h rfl
        next =>
          cases starting with
          | true => exact shaped_of_stage h rfl
          | false => exact shaped_of_stage h rfl
  | pointer params => exact shaped_of_stage h rfl
  | audio expression => exact shaped_of_stage h rfl
  | _ =>
    unfold World.answered
    dsimp only
    split
    next => exact shaped_of_left ⟨_, rfl⟩
    next => exact shaped_of_stage h rfl

theorem ask_shaped {w : World} (cfg : Config) {q : Question} (sent : Except String Unit)
    (h : w.session.isSome = q.ofPage) : (w.ask cfg q sent).Shaped := by
  unfold World.ask
  split
  next => exact shaped_of_stage h rfl
  next => exact answered_shaped cfg _ h

theorem pollTo_shaped {w : World} (polled : Polled) {stage : Stage}
    (h : w.session.isSome = stage.attached) (hplain : stage.plain = true) :
    (w.pollTo polled stage).Shaped := by
  unfold World.pollTo
  split
  next => exact shaped_of_left ⟨_, rfl⟩
  next => exact shaped_of_stage h hplain

theorem drainNext_shaped {w : World} (cfg : Config) {starting : Bool} (sent : Except String Unit)
    (hstage : w.stage = .drain starting) (h : w.session.isSome = true) :
    (w.drainNext cfg starting sent).Shaped := by
  unfold World.drainNext Connection.nextEvent
  split
  next conn hnext =>
    have hempty : w.conn.events = [] := List.head?_eq_none_iff.mp (Prod.mk.inj hnext).2
    cases starting with
    | true => exact shaped_of_stage h rfl
    | false => exact ⟨.inr h, fun _ => hempty, fun _ h => by cases h⟩
  next conn e hnext =>
    split
    next =>
      unfold World.handleFrame World.failDecode
      dsimp only
      split
      next => exact shaped_of_stage h rfl
      next => exact ask_shaped cfg sent h
    next =>
      refine shaped_of_stage ?_ (by rw [hstage]; rfl)
      rw [hstage]
      exact h

/-! ### The heartbeat and the frames published -/

theorem resolveProbe_keeps (session : String) (w : World) (now : Nat) :
    Same session w (w.resolveProbe now).1 ∧ (w.resolveProbe now).1.session = w.session := by
  unfold World.resolveProbe
  split
  next => exact ⟨⟨rfl, rfl, rfl⟩, rfl⟩
  next id sentAt _ =>
    split
    next conn r htake =>
      exact ⟨⟨rfl, by rw [← takeResponse_rest w.conn id, htake], rfl⟩, rfl⟩
    next =>
      split
      next => exact ⟨⟨rfl, rfl, rfl⟩, rfl⟩
      next => exact ⟨⟨rfl, rfl, rfl⟩, rfl⟩

theorem sendProbe_keeps (session : String) (w : World) (now : Nat) (sent : Except String Unit) :
    Same session w (w.sendProbe now sent).1 ∧ (w.sendProbe now sent).1.session = w.session := by
  unfold World.sendProbe
  split
  next =>
    have hrest := sendRequest_rest w.conn w.session sent
    split
    next conn id hsend =>
      refine ⟨⟨rfl, by rw [← hrest, hsend], ?_⟩, rfl⟩
      have hother : acks session [⟨w.session, "Runtime.evaluate",
          .object [("expression", .string "1+1")]⟩] = [] := by
        simp [acks, Request.ack?]
      rw [acks_append, hother, List.append_nil]
    next conn e hsend => exact ⟨⟨rfl, by rw [← hrest, hsend], rfl⟩, rfl⟩
  next => exact ⟨⟨rfl, rfl, rfl⟩, rfl⟩

theorem heartbeatTick_keeps (session : String) (w : World) (now : Nat) (sent : Except String Unit) :
    Same session w (w.heartbeatTick now sent) ∧ (w.heartbeatTick now sent).session = w.session ∧
      ((w.heartbeatTick now sent).stage = .poll ∨ (w.heartbeatTick now sent).Left) := by
  obtain ⟨hresolve, hsession⟩ := resolveProbe_keeps session w now
  obtain ⟨hsend, hsession'⟩ := sendProbe_keeps session (w.resolveProbe now).1 now sent
  have hsame := hresolve.trans hsend
  unfold World.heartbeatTick
  dsimp only
  split
  next => exact ⟨⟨hsame.received, hsame.queue, hsame.acks⟩, hsession'.trans hsession, .inl rfl⟩
  next => exact ⟨⟨hsame.received, hsame.queue, hsame.acks⟩, hsession'.trans hsession, .inr ⟨_, rfl⟩⟩

theorem publish_keeps (session : String) (w : World) (cfg : Config) (now : Nat) (written : Bool) :
    Same session w (w.publish cfg now written) ∧
      (w.publish cfg now written).session = w.session ∧
      ((w.publish cfg now written).stage = .pointer ∨ (w.publish cfg now written).Left) := by
  unfold World.publish World.leave
  dsimp only
  repeat' split
  all_goals first
    | exact ⟨⟨rfl, rfl, rfl⟩, rfl, .inl rfl⟩
    | exact ⟨⟨rfl, rfl, rfl⟩, rfl, .inr ⟨_, rfl⟩⟩

/-! ### All steps -/

theorem step_shaped (cfg : Config) {w : World} (h : w.Shaped) (m : Move) :
    (World.step cfg w m).Shaped := by
  unfold World.step
  split
  next q sent hstage => exact ask_shaped cfg sent (h.at hstage (fun _ h => by cases h))
  next id q _ hstage => exact answered_shaped cfg _ (h.at hstage (fun _ h => by cases h))
  next id q polled hstage =>
    have hattached := h.at hstage (fun _ h => by cases h)
    unfold World.round
    split
    next => exact answered_shaped cfg _ hattached
    next => exact shaped_of_stage hattached rfl
  next id q hstage =>
    have hattached := h.at hstage (fun _ h => by cases h)
    split
    next => exact answered_shaped cfg _ hattached
    next => exact shaped_of_stage hattached rfl
  next => exact shaped_of_left ⟨_, rfl⟩
  next hstage =>
    have hattached := h.at hstage (fun _ h => by cases h)
    exact pollTo_shaped _ hattached rfl
  next => exact shaped_of_left ⟨_, rfl⟩
  next hstage =>
    have hattached := h.at hstage (fun _ h => by cases h)
    exact pollTo_shaped _ hattached rfl
  next hstage =>
    have hattached := h.at hstage (fun _ h => by cases h)
    exact pollTo_shaped _ hattached rfl
  next starting sent hstage =>
    exact drainNext_shaped cfg sent hstage (h.at hstage (fun _ h => by cases h))
  next hstage =>
    have hattached := h.at hstage (fun _ h => by cases h)
    exact shaped_of_stage hattached rfl
  next params hstage =>
    have hattached := h.at hstage (fun _ h => by cases h)
    repeat' split
    all_goals exact shaped_of_stage hattached rfl
  next expression hstage =>
    have hattached := h.at hstage (fun _ h => by cases h)
    split
    next => exact shaped_of_stage hattached rfl
    next => exact shaped_of_stage hattached rfl
  next leaving hstage =>
    have hattached := h.at hstage (fun _ h => by cases h)
    split
    next => exact shaped_of_left ⟨_, rfl⟩
    next => exact shaped_of_stage hattached rfl
  next now sent hstage =>
    have hattached := h.at hstage (fun _ h => by cases h)
    obtain ⟨-, hsession, hpoll | hleft⟩ := heartbeatTick_keeps "" w now sent
    · refine shaped_of_stage ?_ (by rw [hpoll]; rfl)
      rw [hsession, hpoll]
      exact hattached
    · exact shaped_of_left hleft
  next now written hstage =>
    have hattached := h.at hstage (fun _ h => by cases h)
    obtain ⟨-, hsession, hpointer | hleft⟩ := publish_keeps "" w cfg now written
    · refine shaped_of_stage ?_ (by rw [hpointer]; rfl)
      rw [hsession, hpointer]
      exact hattached
    · exact shaped_of_left hleft
  next => exact h

theorem ask_session (w : World) (cfg : Config) {q : Question} (sent : Except String Unit)
    (h : q.ofPage = true) : (w.ask cfg q sent).session = w.session := by
  unfold World.ask
  split
  next => rfl
  next => exact answered_session _ cfg _ h

theorem pollTo_session (w : World) (polled : Polled) (stage : Stage) :
    (w.pollTo polled stage).session = w.session := by
  unfold World.pollTo
  split
  next => rfl
  next => rfl

theorem drainNext_session (w : World) (cfg : Config) (starting : Bool) (sent : Except String Unit) :
    (w.drainNext cfg starting sent).session = w.session := by
  unfold World.drainNext
  split
  next => rfl
  next =>
    split
    next =>
      unfold World.handleFrame
      dsimp only
      split
      next => rfl
      next => exact ask_session _ cfg sent rfl
    next => rfl

/-- A session that the worker has stays. -/
theorem step_session (cfg : Config) {w : World} (h : w.Shaped) (hsession : w.session.isSome = true)
    (m : Move) : (World.step cfg w m).session = w.session := by
  unfold World.step
  split
  next q sent hstage =>
    exact ask_session _ cfg sent ((h.at hstage (fun _ h => by cases h)).symm.trans hsession)
  next id q _ hstage =>
    exact answered_session _ cfg _ ((h.at hstage (fun _ h => by cases h)).symm.trans hsession)
  next id q polled hstage =>
    unfold World.round
    split
    next => exact answered_session _ cfg _ ((h.at hstage (fun _ h => by cases h)).symm.trans hsession)
    next => rfl
  next id q hstage =>
    split
    next => exact answered_session _ cfg _ ((h.at hstage (fun _ h => by cases h)).symm.trans hsession)
    next => rfl
  next => rfl
  next => exact pollTo_session w _ _
  next => rfl
  next => exact pollTo_session w _ _
  next => exact pollTo_session w _ _
  next => exact drainNext_session w cfg _ _
  next => rfl
  next =>
    repeat' split
    all_goals rfl
  next =>
    split
    next => rfl
    next => rfl
  next =>
    split
    next => rfl
    next => rfl
  next => exact (heartbeatTick_keeps "" w _ _).2.1
  next => exact (publish_keeps "" w cfg _ _).2.1
  next => rfl

/-! ## Acknowledgements -/

theorem Same.balanced {session : String} {w w' : World} (h : Same session w w') :
    w'.Balanced session ↔ w.Balanced session := by
  unfold World.Balanced
  rw [h.received, h.queue, h.acks]

/-- Messages that arrive leave the frames balanced exactly when none of the
frames is lost. -/
theorem receive_balanced {session : String} {w : World} (h : w.Balanced session) (polled : Polled) :
    (w.receive polled).Balanced session ↔ KeepsFrames session w.conn.events polled := by
  have hqueue := (poll_routes w.conn polled).events
  have hlost := lostAll_append_foldl defaultEventQueueLimit w.conn.events
    ((routedOf polled).filterMap Message.event?)
  rw [← hqueue] at hlost
  have hframes := congrArg (frames session) hlost
  rw [frames_append, frames_append] at hframes
  have harrived : frames session (w.receive polled).received =
      (acks session w.written).map some ++
        (frames session (lostAll defaultEventQueueLimit w.conn.events
          ((routedOf polled).filterMap Message.event?)) ++
        (frames session (w.receive polled).conn.events ++ frames session (lostEvents polled))) := by
    show frames session (w.received ++ _) = _
    rw [events_eq, frames_append, frames_append, h, ← List.append_assoc (frames session (lostAll _ _ _))]
    show _ = _ ++ (_ ++ frames session (w.conn.poll polled).1.events ++ _)
    rw [hframes]
    simp only [List.append_assoc]
  unfold World.Balanced KeepsFrames
  rw [harrived, ← frames_eq_nil, frames_append, List.append_eq_nil_iff]
  exact (List.append_right_inj _).trans append_append_eq_self

/-- The worker that has not left, in terms of its stage. -/
theorem not_left {w : World} {stage : Stage} (hstage : w.stage = stage)
    (h : ∀ reason, stage ≠ .left reason) : ¬ w.Left := fun ⟨reason, hreason⟩ =>
  h reason (hstage.symm.trans hreason)

theorem Same.acknowledged {session : String} {w w' : World} (h : Same session w w')
    (hbalanced : w.Balanced session) : w'.Acknowledged session :=
  fun _ _ => h.balanced.mpr hbalanced

theorem acknowledged_of_left {session : String} {w : World} (h : w.Left) : w.Acknowledged session :=
  fun hleft => absurd h hleft

/-- Another request than an acknowledgement acknowledges nothing. -/
theorem ask_same (session : String) (w : World) (cfg : Config) {q : Question}
    (sent : Except String Unit) (hq : q.method ≠ "Page.screencastFrameAck") :
    Same session w (w.ask cfg q sent) := by
  have hrest := sendRequest_rest w.conn (q.sessionId w.session) sent
  unfold World.ask
  split
  next conn id hsend =>
    refine ⟨rfl, by rw [← hrest, hsend], ?_⟩
    have hother : acks session [⟨q.sessionId w.session, q.method, q.params cfg⟩] = [] := by
      simp [acks, Request.ack?, hq]
    rw [acks_append, hother, List.append_nil]
  next conn e hsend =>
    have hconn : Same session w { w with conn := conn } := ⟨rfl, by rw [← hrest, hsend], rfl⟩
    exact hconn.trans (answered_same session _ cfg q _)

/-- The acknowledgement of a frame is written exactly when there is room for the
request and the pipe takes it. -/
theorem ask_ack {session : String} {w : World} (hsession : w.session = some session) (cfg : Config)
    (starting : Bool) (e : Event) (frameSession : Json) (sent : Except String Unit) :
    (w.ask cfg (.ack starting e frameSession) sent).received = w.received ∧
    (w.ask cfg (.ack starting e frameSession) sent).conn.events = w.conn.events ∧
    ¬ (w.ask cfg (.ack starting e frameSession) sent).Left ∧
    acks session (w.ask cfg (.ack starting e frameSession) sent).written =
      acks session w.written ++
        if w.conn.pending.length < maxInFlightRequests ∧ sent = .ok () then [frameSession] else [] := by
  have hrest := sendRequest_rest w.conn ((Question.ack starting e frameSession).sessionId w.session) sent
  have hok := sendRequest_ok_iff w.conn ((Question.ack starting e frameSession).sessionId w.session) sent
  unfold World.ask
  split
  next conn id hsend =>
    rw [if_pos (hok.mp ⟨id, by rw [hsend]⟩)]
    refine ⟨rfl, by rw [← hrest, hsend], not_left rfl (fun _ h => by cases h), ?_⟩
    rw [acks_append, hsession]
    simp [acks, Request.ack?, Question.sessionId, Question.method, Question.params, getField, Json.get]
  next conn error hsend =>
    have hnot : ¬ (w.conn.pending.length < maxInFlightRequests ∧ sent = .ok ()) := fun h => by
      obtain ⟨id, hid⟩ := hok.mpr h
      rw [hsend] at hid
      cases hid
    rw [if_neg hnot, List.append_nil]
    refine ⟨rfl, by rw [← hrest, hsend]; rfl, not_left rfl (fun _ h => by cases h), rfl⟩

/-- What was balanced with a frame at the head of the queue is not without
it. -/
theorem not_balanced_tail {frame : Option Json} {received : List (Option Json)} {acked : List Json}
    {queued : List (Option Json)} (h : received = acked.map some ++ ([frame] ++ queued)) :
    received ≠ acked.map some ++ queued := by
  rw [h]
  intro heq
  have hlength := congrArg List.length heq
  simp only [List.length_append, List.length_singleton] at hlength
  omega

/-- **Frames.**  What is taken from the queue leaves the frames balanced exactly
when a frame among it can be acknowledged. -/
theorem drainNext_iff {session : String} {w : World} (hsession : w.session = some session)
    (h : w.Balanced session) (cfg : Config) (starting : Bool) (sent : Except String Unit) :
    (∀ e, w.conn.events.head? = some e → isFrame session e = true →
      (frameSession e).isSome = true ∧ w.conn.pending.length < maxInFlightRequests ∧ sent = .ok ()) ↔
      (w.drainNext cfg starting sent).Acknowledged session := by
  unfold World.drainNext Connection.nextEvent
  cases hqueue : w.conn.events with
  | nil =>
    refine iff_of_true (fun _ h => by cases h) fun _ _ => ?_
    have hsame : Same session w { w with stage := if starting then .startPoll else .publish } :=
      ⟨rfl, rfl, rfl⟩
    exact hsame.balanced.mpr h
  | cons e rest =>
    have hframe : w.isOwnFrame e = isFrame session e := by
      simp [World.isOwnFrame, isFrame, hsession]
    unfold World.Balanced at h
    rw [hqueue, frames_cons] at h
    simp only [List.head?_cons, List.tail_cons, Option.some.injEq, forall_eq', hframe]
    cases hown : isFrame session e with
    | false =>
      rw [hown] at h
      exact iff_of_true (fun h => by cases h) fun _ _ => h
    | true =>
      rw [hown, if_pos rfl] at h
      have hserves : ∀ {w' : World}, w'.session = w.session → w'.Serves session :=
        fun h => .inr (h.trans hsession)
      rw [if_pos rfl]
      unfold World.handleFrame
      dsimp only
      cases hframeSession : frameSession e with
      | none =>
        refine iff_of_false (fun h => by cases (h rfl).1) fun hacked => ?_
        exact not_balanced_tail h (hacked (not_left rfl (fun _ h => by cases h)) (hserves rfl))
      | some frameSession =>
        dsimp only
        rw [hframeSession] at h
        have hasked := @ask_ack session
          { w with
            conn := { w.conn with events := rest }
            framesSeen := saturatingSucc64 w.framesSeen
            viewport := (metadataViewport e.params).getD w.viewport }
          hsession cfg starting e frameSession sent
        obtain ⟨hreceived, hevents, hleft, hacks⟩ := hasked
        unfold World.Acknowledged World.Balanced
        rw [hreceived, hevents, hacks]
        split
        next hroom =>
          refine iff_of_true (fun _ => ⟨rfl, hroom⟩) fun _ _ => ?_
          rw [List.map_append, List.append_assoc]
          exact h
        next hroom =>
          refine iff_of_false (fun h => hroom (h rfl).2) fun hacked => ?_
          rw [List.append_nil] at hacked
          exact not_balanced_tail h (hacked hleft (hserves (ask_session _ cfg sent rfl)))

/-- **Polls.**  A poll outside of requests loses no frame, or ends the
worker. -/
theorem pollTo_iff {session : String} {w : World} (hserves : w.Serves session)
    (h : w.Balanced session) (polled : Polled) {stage : Stage}
    (hstage : ∀ reason, stage ≠ .left reason) :
    (KeepsFrames session w.conn.events polled ∨ ¬ Readable polled) ↔
      (w.pollTo polled stage).Acknowledged session := by
  have hread := poll_ok_iff w.conn polled
  have hkept := receive_balanced h polled
  unfold World.pollTo
  split
  next e hresult =>
    have hunread : ¬ Readable polled := fun h => by
      rw [hread.mpr h] at hresult
      cases hresult
    exact iff_of_true (.inr hunread) (acknowledged_of_left ⟨_, rfl⟩)
  next hresult =>
    have hreadable : Readable polled := hread.mp hresult
    rw [or_iff_left (not_not_intro hreadable), ← hkept]
    exact ⟨fun h _ _ => h, fun h => h (not_left rfl hstage) hserves⟩

/-- A round of a request loses no frame, or ends the worker, which needs the
request. -/
theorem round_iff {session : String} {w : World} (hserves : w.Serves session)
    (h : w.Balanced session) (cfg : Config) (id : UInt32) {q : Question}
    (hattached : w.session.isSome = q.ofPage) (polled : Polled) :
    (KeepsFrames session w.conn.events polled ∨ q.required = true ∧ ¬ Readable polled) ↔
      (w.round cfg id q polled).Acknowledged session := by
  have hread := poll_ok_iff w.conn polled
  have hkept := receive_balanced h polled
  unfold World.round
  split
  next e hresult =>
    have hunread : ¬ Readable polled := fun h => by
      rw [hread.mpr h] at hresult
      cases hresult
    have hleft := answered_error (w.receive polled) cfg q e
    have hsame := answered_same session (w.receive polled) cfg q (.error e)
    cases hrequired : q.required with
    | true =>
      exact iff_of_true (.inr ⟨rfl, hunread⟩) (acknowledged_of_left (hleft.mpr hrequired))
    | false =>
      rw [hrequired] at hleft
      have hpage : q.ofPage = true := by
        cases q with
        | getTargets => cases hrequired
        | attachToTarget targetId => cases hrequired
        | _ => rfl
      have hserves' : ((w.receive polled).answered cfg q (.error e)).Serves session := by
        unfold World.Serves
        rw [answered_session _ cfg _ hpage]
        exact hserves
      rw [or_iff_left (fun h => Bool.false_ne_true h.1), ← hkept, ← hsame.balanced]
      exact ⟨fun h _ _ => h, fun h => h (fun h => Bool.false_ne_true (hleft.mp h)) hserves'⟩
  next hresult =>
    have hreadable : Readable polled := hread.mp hresult
    rw [or_iff_left (fun h => h.2 hreadable), ← hkept]
    exact ⟨fun h _ _ => h, fun h => h (not_left rfl (fun _ h => by cases h)) hserves⟩

/-! ### All steps -/

/-- A worker that left does nothing. -/
theorem step_of_left (cfg : Config) {w : World} (h : w.Left) (m : Move) :
    World.step cfg w m = w := by
  obtain ⟨reason, h⟩ := h
  unfold World.step
  rw [h]

/-- A stage without a poll and without a frame. -/
def Stage.quiet : Stage → Bool
  | .await _ _ | .findPoll | .startPoll | .poll | .drain _ => false
  | _ => true

/-- Nothing is asked of a step at a quiet stage. -/
theorem sound_of_quiet {session : String} {w : World} {m : Move} {stage : Stage}
    (hstage : w.stage = stage) (hquiet : stage.quiet = true) : w.Sound session m := by
  intro _
  rw [hstage]
  cases stage with
  | await id q => cases hquiet
  | findPoll => cases hquiet
  | startPoll => cases hquiet
  | poll => cases hquiet
  | drain starting => cases hquiet
  | _ => trivial

/-- **One step.**  A step keeps every frame acknowledged or queued exactly when
it is sound. -/
theorem step_acknowledged (cfg : Config) {session : String} {w : World} (hshaped : w.Shaped)
    (h : w.Acknowledged session) (m : Move) :
    w.Sound session m ↔ (World.step cfg w m).Acknowledged session := by
  by_cases hserves : w.Serves session
  case neg =>
    have hsome : w.session.isSome = true :=
      Option.isSome_iff_ne_none.mpr fun h => hserves (.inl h)
    refine iff_of_true (fun h => absurd h hserves) fun _ h => absurd ?_ hserves
    rwa [World.Serves, step_session cfg hshaped hsome m] at h
  by_cases hleft : w.Left
  case pos =>
    rw [step_of_left cfg hleft]
    obtain ⟨reason, hreason⟩ := hleft
    exact iff_of_true (sound_of_quiet hreason rfl) h
  have hbalanced := h hleft hserves
  unfold World.step
  split
  next q sent hstage =>
    exact iff_of_true (sound_of_quiet hstage rfl)
      ((ask_same session w cfg sent (hshaped.asked q hstage)).acknowledged hbalanced)
  next id q _ hstage =>
    refine iff_of_true (fun _ => by rw [hstage]; trivial) ?_
    have hdiscard : Same session w { w with conn := w.conn.discardPending id } :=
      ⟨rfl, discardPending_rest w.conn id, rfl⟩
    exact (hdiscard.trans (answered_same session _ cfg q _)).acknowledged hbalanced
  next id q polled hstage =>
    have hattached := hshaped.at hstage (fun _ h => by cases h)
    unfold World.Sound
    rw [hstage, ← round_iff hserves hbalanced cfg id hattached polled]
    exact ⟨fun h => h hserves, fun h _ => h⟩
  next id q hstage =>
    refine iff_of_true (sound_of_quiet hstage rfl) ?_
    have hrest := takeResponse_rest w.conn id
    split
    next conn r htake =>
      have htaken : Same session w { w with conn := conn } := ⟨rfl, by rw [← hrest, htake], rfl⟩
      exact (htaken.trans (answered_same session _ cfg q _)).acknowledged hbalanced
    next => exact fun _ _ => hbalanced
  next hstage =>
    exact iff_of_true (fun _ => by rw [hstage]; trivial) (acknowledged_of_left ⟨_, rfl⟩)
  next polled hstage =>
    unfold World.Sound
    rw [hstage, ← pollTo_iff hserves hbalanced polled (fun _ h => by cases h)]
    exact ⟨fun h => h hserves, fun h _ => h⟩
  next hstage =>
    exact iff_of_true (fun _ => by rw [hstage]; trivial) (acknowledged_of_left ⟨_, rfl⟩)
  next polled hstage =>
    unfold World.Sound
    rw [hstage, ← pollTo_iff hserves hbalanced polled (fun _ h => by cases h)]
    exact ⟨fun h => h hserves, fun h _ => h⟩
  next polled hstage =>
    unfold World.Sound
    rw [hstage, ← pollTo_iff hserves hbalanced polled (fun _ h => by cases h)]
    exact ⟨fun h => h hserves, fun h _ => h⟩
  next starting sent hstage =>
    have hattached : w.session.isSome = true := hshaped.at hstage (fun _ h => by cases h)
    have hsession : w.session = some session := by
      rcases hserves with hnone | hsession
      · rw [hnone] at hattached
        cases hattached
      · exact hsession
    unfold World.Sound
    rw [hstage, ← drainNext_iff hsession hbalanced cfg starting sent]
    exact ⟨fun h => h hserves, fun h _ => h⟩
  next hstage => exact iff_of_true (sound_of_quiet hstage rfl) fun _ _ => hbalanced
  next hstage =>
    refine iff_of_true (sound_of_quiet hstage rfl) ?_
    repeat' split
    all_goals exact fun _ _ => hbalanced
  next hstage =>
    refine iff_of_true (sound_of_quiet hstage rfl) ?_
    split
    next => exact fun _ _ => hbalanced
    next => exact fun _ _ => hbalanced
  next hstage =>
    refine iff_of_true (sound_of_quiet hstage rfl) ?_
    split
    next => exact fun _ _ => hbalanced
    next => exact fun _ _ => hbalanced
  next now sent hstage =>
    exact iff_of_true (sound_of_quiet hstage rfl)
      ((heartbeatTick_keeps session w now sent).1.acknowledged hbalanced)
  next now written hstage =>
    exact iff_of_true (sound_of_quiet hstage rfl)
      ((publish_keeps session w cfg now written).1.acknowledged hbalanced)
  next _ _ hround _ _ hfind _ hstart hpoll hdrain _ _ _ _ _ _ =>
    refine iff_of_true (fun _ => ?_) h
    split
    next => exact (hround _ _ _ ‹w.stage = .await _ _› rfl).elim
    next => exact (hfind _ ‹w.stage = .findPoll› rfl).elim
    next => exact (hstart _ ‹w.stage = .startPoll› rfl).elim
    next => exact (hpoll _ _ ‹w.stage = .poll› rfl).elim
    next => exact (hdrain _ _ ‹w.stage = .drain _› rfl).elim
    next => trivial

/-! ## Runs -/

/-- A worker that publishes has acknowledged what it received. -/
theorem not_stalled {session : String} {w : World} (hshaped : w.Shaped)
    (h : w.Acknowledged session) : ¬ w.Stalled session := by
  rintro ⟨hstage, hsession, hunacked⟩
  have hbalanced := h (not_left hstage (fun _ h => by cases h)) (.inr hsession)
  unfold World.Balanced at hbalanced
  have hempty : frames session ([] : List Event) = [] := rfl
  rw [hshaped.drained hstage, hempty, List.append_nil] at hbalanced
  unfold World.unacknowledged at hunacked
  rw [hbalanced, List.length_map] at hunacked
  omega

theorem shaped_new : World.new.Shaped := shaped_of_stage rfl rfl

theorem run_shaped (cfg : Config) (moves : List Move) :
    (Runs.run (World.step cfg) .new moves).Shaped :=
  Runs.invariant_run_all (I := World.Shaped) (fun _ m h => step_shaped cfg h m) shaped_new moves

/-- **The screencast.**  In every run of the start and the capture loop, every
step leaves each frame of the session acknowledged or queued, and never a worker
that publishes for a browser that has stopped, exactly when every step is
sound. -/
theorem screencast_acknowledged (cfg : Config) (session : String) (moves : List Move) :
    Runs.Along (World.step cfg) (World.Sound session) .new moves ↔
      Runs.Along (World.step cfg)
        (fun w m => (World.step cfg w m).Acknowledged session ∧ ¬ (World.step cfg w m).Stalled session)
        .new moves := by
  refine Runs.along_congr (C := fun _ _ => True)
    (I := fun w => w.Shaped ∧ w.Acknowledged session) (fun w m h _ hsound => ?_) (fun w m h _ => ?_)
    ⟨shaped_new, fun _ _ => rfl⟩ (Runs.along_of_forall (fun _ _ => trivial) _ _)
  · exact ⟨step_shaped cfg h.1 m, (step_acknowledged cfg h.1 h.2 m).mp hsound⟩
  · rw [step_acknowledged cfg h.1 h.2 m]
    exact (and_iff_left_of_imp fun hacked => not_stalled (step_shaped cfg h.1 m) hacked).symm

/-! ### A run that stalls -/

/-- The browser sends no frame while three of them are not acknowledged. -/
def World.Restrained (session : String) (w : World) (m : Move) : Prop :=
  match m with
  | .wait _ polled | .poll _ polled =>
    w.unacknowledged session + (frames session ((messagesOf polled).filterMap Message.event?)).length ≤ 3
  | _ => True

instance (session : String) (w : World) (m : Move) : Decidable (w.Restrained session m) :=
  match m with
  | .wait _ _ | .poll _ _ => inferInstanceAs (Decidable (_ ≤ _))
  | .send _ | .take | .next _ | .begin _ | .pointer _ | .audio _ | .observe _ | .heartbeat _ _
  | .publish _ _ => inferInstanceAs (Decidable True)

instance (w : World) : Decidable (w.stage = .publish) :=
  match h : w.stage with
  | .publish => isTrue rfl
  | .ask _ | .await _ _ | .take _ _ | .findPoll | .startPoll | .drain _ | .begin | .pointer | .audio
  | .observe | .heartbeat | .poll | .left _ => isFalse (fun h => by cases h)

/-- A gray picture of one pixel. -/
def onePixel : Config where
  urlMatches url := url = "file:///wallpaper/index.html"
  decode _ := some [128, 128, 128, 255]
  width := 1
  height := 1
  pixelBytes := 4
  interval := 33
  heartbeatInterval := 1000
  heartbeatMaxFailures := 3

def browserAnswer (id : Nat) (result : Json) : Polled :=
  .ok [.ok (.object [("id", .nat id), ("result", result)])]

def sessionAnswer (id : Nat) : Polled :=
  .ok [.ok (.object [("id", .nat id), ("result", .object []), ("sessionId", .string "page")])]

def wallpaperTarget : Json :=
  .object [("targetInfos", .array [.object [("targetId", .string "target"), ("type", .string "page"),
    ("url", .string "file:///wallpaper/index.html")]])]

def frameBody (frameSession : Nat) : Body :=
  .ok (.object [("method", .string "Page.screencastFrame"),
    ("params", .object [
      ("data", .string "/9j/2wBDAAEBAQEBAQEBAQEBAQEBAQEBAQEBAQEBAQEBAQEBAQEBAQEBAQEBAQEBAQEBAQEBAQEBAQEBAQEBAQEBAQEBAQH/wAALCAABAAEBAREA/8QAFAABAAAAAAAAAAAAAAAAAAAAAP/EABQQAQAAAAAAAAAAAAAAAAAAAAD/2gAIAQEAAD8AP//Z"),
      ("metadata", .object [("deviceWidth", .nat 1), ("deviceHeight", .nat 1)]),
      ("sessionId", .nat frameSession)]),
    ("sessionId", .string "page")])

/-- What a page reports that changes its own address. -/
def navigatedBody : Body :=
  .ok (.object [("method", .string "Page.navigatedWithinDocument"), ("params", .object []),
    ("sessionId", .string "page")])

/-- A request that is answered at once. -/
def request (answer : Polled) : List Move := [.send (.ok ()), .wait false answer, .take]

/-- A round of the capture loop without input, in which `count` events are
taken from the queue. -/
def captureRound (now : Nat) (polled : Polled) (count : Nat) : List Move :=
  [.pointer none, .audio none, .observe none, .heartbeat now (.ok ()), .poll false polled] ++
    List.replicate (count + 1) (.next (.ok ()))

/-- The start, whose first frame is published; then three frames and as many
other events as the queue holds, in one poll. -/
def crowded : List Move :=
  request (browserAnswer 1 wallpaperTarget) ++
  request (browserAnswer 2 (.object [("sessionId", .string "page")])) ++
  request (sessionAnswer 3) ++ request (sessionAnswer 4) ++
  [.poll false (.ok [frameBody 1]), .next (.ok ()), .wait false (sessionAnswer 5), .take, .begin 0] ++
  captureRound 0 (.ok []) 0 ++ [.publish 0 true] ++
  captureRound 34 (.ok (List.map frameBody [2, 3, 4] ++ List.replicate 64 navigatedBody)) 64

/-- The last frame is published again and again, and the heartbeat is
answered. -/
def crowdedThenQuiet : List Move :=
  crowded ++ [.publish 34 true] ++
  captureRound 1000 (sessionAnswer 6) 0 ++ [.publish 1000 true] ++
  captureRound 1050 (.ok []) 0

/-- The frames fall out of the queue: the worker stays, publishing its last
frame, and the browser has stopped. -/
theorem screencast_crowded :
    Runs.Along (World.step onePixel) (World.Restrained "page") .new crowdedThenQuiet ∧
      (Runs.run (World.step onePixel) .new crowdedThenQuiet).Stalled "page" ∧
      ¬ (Runs.run (World.step onePixel) .new crowdedThenQuiet).Acknowledged "page" ∧
      (Runs.run (World.step onePixel) .new crowdedThenQuiet).stallTicks = 2 ∧
      (Runs.run (World.step onePixel) .new crowdedThenQuiet).heartbeat.pending = none ∧
      (Runs.run (World.step onePixel) .new crowdedThenQuiet).heartbeat.nextProbeAt = 2050 ∧
      (Runs.run (World.step onePixel) .new crowdedThenQuiet).heartbeat.consecutiveFailures = 0 := by
  have hstage : (Runs.run (World.step onePixel) .new crowdedThenQuiet).stage = .publish := by
    decide +kernel
  have hsession : (Runs.run (World.step onePixel) .new crowdedThenQuiet).session = some "page" := by
    decide +kernel
  have hunacked : 3 ≤ (Runs.run (World.step onePixel) .new crowdedThenQuiet).unacknowledged "page" := by
    decide +kernel
  have hstalled := World.Stalled.mk hstage hsession hunacked
  refine ⟨by decide +kernel, hstalled, fun h => ?_, ?_⟩
  · exact not_stalled (run_shaped onePixel crowdedThenQuiet) h hstalled
  · decide +kernel

end Kwe.Web

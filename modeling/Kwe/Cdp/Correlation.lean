import Kwe.Cdp.Connection
import Kwe.Foundation.Runs

/-!
The callers of a browser connection over whole runs: blocking requests, requests
whose answer is taken later, and the heartbeat of the capture loop.

* `Inv.step`: what every step keeps that leaves no slot behind and no event
  unread;
* `correlated_iff`: the runs in which responses, events and slots are accounted
  for.
-/

namespace Kwe.Cdp

open Foundation Foundation.Collections

/-! ## The heartbeat -/

inductive HeartbeatProbeResult
  | answered (ok : Bool)
  | timedOut
  | sendFailed
  deriving DecidableEq, Repr

inductive HeartbeatOutcome
  | continue
  | exceeded (consecutive : Nat)
  deriving DecidableEq, Repr

/-- Times are milliseconds. -/
structure HeartbeatTracker where
  interval : Nat
  maxFailures : Nat
  consecutiveFailures : Nat
  nextProbeAt : Nat
  pending : Option (UInt32 × Nat)

def saturatingSucc32 (n : Nat) : Nat := min (n + 1) (2 ^ 32 - 1)

namespace HeartbeatTracker

def new (interval maxFailures now : Nat) : HeartbeatTracker :=
  ⟨interval, maxFailures, 0, now + interval, none⟩

def shouldProbe (t : HeartbeatTracker) (now : Nat) : Bool :=
  t.pending.isNone && t.nextProbeAt ≤ now

def noteSent (t : HeartbeatTracker) (id : UInt32) (now : Nat) : HeartbeatTracker :=
  { t with pending := some (id, now) }

def resolve (t : HeartbeatTracker) (now : Nat) (result : HeartbeatProbeResult) :
    HeartbeatTracker × HeartbeatOutcome :=
  let failures :=
    match result with
    | .answered true => 0
    | .answered false | .timedOut | .sendFailed => saturatingSucc32 t.consecutiveFailures
  let t := { t with
    pending := none
    consecutiveFailures := failures
    nextProbeAt := now + t.interval }
  (t, if t.maxFailures ≤ failures then .exceeded failures else .continue)

end HeartbeatTracker

/-! ## Runs -/

inductive Fate
  | handed | dropped
  deriving DecidableEq, Repr

/-- What happened so far, in order: the requests sent, the responses and events
that arrived, the responses delivered, the events that left the queue; and the
requests that a caller still awaits. -/
structure History where
  sent : List (UInt32 × Option String)
  responses : List Response
  received : List Event
  delivered : List Response
  gone : List (Event × Fate)
  awaited : List UInt32

/-- The client, the heartbeat of its capture loop, and the blocking request
that is under way. -/
structure World where
  conn : Connection
  heartbeat : HeartbeatTracker
  sessionId : String
  blocking : Option UInt32
  exited : Bool
  history : History

inductive Input
  /-- A blocking request is sent. -/
  | request (sessionId : Option String) (sent : Except String Unit)
  /-- A round of its loop, before the deadline. -/
  | requestPoll (polled : Polled)
  /-- The loop finds that the deadline has passed. -/
  | requestDeadline
  | sendSession (sessionId : String) (sent : Except String Unit)
  | takeResponse (id : UInt32)
  | poll (polled : Polled)
  | nextEvent
  /-- The heartbeat of a tick of the capture loop. -/
  | heartbeat (now : Nat) (sent : Except String Unit)

/-! ### What the history records -/

def Message.response? : Message → Option Response
  | .response r => some r
  | .event _ => none

def Message.event? : Message → Option Event
  | .response _ => none
  | .event e => some e

def readable (body : Body) : Option Message := (readMessage body).toOption

/-- The messages of a poll that can be read, whether or not they are routed. -/
def messagesOf (polled : Polled) : List Message :=
  match polled with
  | .error _ => []
  | .ok bodies => bodies.filterMap readable

/-- The messages of a poll up to the first that cannot be read. -/
def routed : List Body → List Message
  | [] => []
  | body :: bodies =>
    match readMessage body with
    | .error _ => []
    | .ok message => message :: routed bodies

/-- The messages after the first that cannot be read. -/
def unread : List Body → List Body
  | [] => []
  | body :: bodies =>
    match readMessage body with
    | .error _ => bodies
    | .ok _ => unread bodies

def routedOf (polled : Polled) : List Message :=
  match polled with
  | .error _ => []
  | .ok bodies => routed bodies

namespace History

def new : History := ⟨[], [], [], [], [], []⟩

def send (h : History) (id : UInt32) (sessionId : Option String) : History :=
  { h with sent := h.sent ++ [(id, sessionId)], awaited := id :: h.awaited }

def giveUp (h : History) (id : UInt32) : History := { h with awaited := h.awaited.erase id }

def deliver (h : History) (r : Response) : History :=
  { h with delivered := h.delivered ++ [r], awaited := h.awaited.erase r.id }

/-- A poll with this queue. -/
def arrive (h : History) (queue : List Event) (polled : Polled) : History :=
  { h with
    responses := h.responses ++ (messagesOf polled).filterMap Message.response?
    received := h.received ++ (messagesOf polled).filterMap Message.event?
    gone := h.gone ++
      (lostAll defaultEventQueueLimit queue ((routedOf polled).filterMap Message.event?)).map (·, .dropped) }

def hand (h : History) (e : Event) : History := { h with gone := h.gone ++ [(e, .handed)] }

end History

/-! ### Steps -/

namespace World

def new (sessionId : String) (heartbeat : HeartbeatTracker) : World :=
  ⟨.new, heartbeat, sessionId, none, false, .new⟩

/-- A request is sent; `f` says what the caller does with its id. -/
def send (w : World) (sessionId : Option String) (sent : Except String Unit)
    (f : World → UInt32 → World) : World :=
  match w.conn.sendRequest sessionId sent with
  | (conn, .error _) => { w with conn := conn }
  | (conn, .ok id) => f { w with conn := conn, history := w.history.send id sessionId } id

/-- A caller gets the response of its request. -/
def taken (w : World) (conn : Connection) (r : Response) : World :=
  { w with conn := conn, history := w.history.deliver r }

/-- A caller polls. -/
def polling (w : World) (polled : Polled) : World :=
  { w with
    conn := (w.conn.poll polled).1
    history := w.history.arrive w.conn.events polled }

/-- The loop of a blocking request polls and looks for its response. -/
def requestRound (w : World) (id : UInt32) (polled : Polled) : World :=
  match w.conn.poll polled with
  | (_, .error _) =>
    { w.polling polled with
      blocking := none
      history := (w.polling polled).history.giveUp id }
  | (conn, .ok _) =>
    match conn.takeResponse id with
    | (conn, some r) => { (w.polling polled).taken conn r with blocking := none }
    | (_, none) => w.polling polled

/-- The answer of the probe in flight, and what the tracker makes of it. -/
def resolveProbe (w : World) (now : Nat) : World × HeartbeatOutcome :=
  match w.heartbeat.pending with
  | none => (w, .continue)
  | some (id, sentAt) =>
    match w.conn.takeResponse id with
    | (conn, some r) =>
      let resolved := w.heartbeat.resolve now (.answered r.error.isNone)
      ({ w.taken conn r with heartbeat := resolved.1 }, resolved.2)
    | (_, none) =>
      if w.heartbeat.interval ≤ now - sentAt then
        let resolved := w.heartbeat.resolve now .timedOut
        ({ w with heartbeat := resolved.1, history := w.history.giveUp id }, resolved.2)
      else (w, .continue)

/-- A fresh probe, when it is time for one. -/
def sendProbe (w : World) (now : Nat) (sent : Except String Unit) : World × Option HeartbeatOutcome :=
  if w.heartbeat.shouldProbe now then
    match w.conn.sendRequest (some w.sessionId) sent with
    | (conn, .ok id) =>
      ({ w with
        conn := conn
        heartbeat := w.heartbeat.noteSent id now
        history := w.history.send id (some w.sessionId) }, none)
    | (conn, .error _) =>
      let resolved := w.heartbeat.resolve now .sendFailed
      ({ w with conn := conn, heartbeat := resolved.1 }, some resolved.2)
  else (w, none)

def heartbeatTick (w : World) (now : Nat) (sent : Except String Unit) : World :=
  let resolved := w.resolveProbe now
  let probed := resolved.1.sendProbe now sent
  match probed.2.getD resolved.2 with
  | .continue => probed.1
  | .exceeded _ => { probed.1 with exited := true }

/-- One step.  While a blocking request is under way only its loop runs. -/
def step (w : World) (i : Input) : World :=
  if w.exited then w
  else match w.blocking, i with
  | some id, .requestPoll polled => w.requestRound id polled
  | some id, .requestDeadline =>
    { w with conn := w.conn.discardPending id, blocking := none, history := w.history.giveUp id }
  | some _, _ => w
  | none, .request sessionId sent =>
    w.send sessionId sent fun w id => { w with blocking := some id }
  | none, .requestPoll _ => w
  | none, .requestDeadline => w
  | none, .sendSession sessionId sent => w.send (some sessionId) sent fun w _ => w
  | none, .takeResponse id =>
    match w.conn.takeResponse id with
    | (conn, some r) => w.taken conn r
    | (_, none) => w
  | none, .poll polled => w.polling polled
  | none, .nextEvent =>
    match w.conn.nextEvent with
    | (conn, some e) => { w with conn := conn, history := w.history.hand e }
    | (_, none) => w
  | none, .heartbeat now sent => w.heartbeatTick now sent

end World

/-! ### What is asked of a run -/

/-- **Correlation.**  A request has at most one response delivered, which
arrived for its id and session; the events that arrived are those that left the
queue and those in it, and the dropped ones are counted; every slot is of a
request that a caller awaits. -/
structure World.Correlated (w : World) : Prop where
  once : (w.history.delivered.map (·.id)).Nodup
  answered : ∀ r ∈ w.history.delivered,
    (r.id, r.sessionId) ∈ w.history.sent ∧ r ∈ w.history.responses
  events : w.history.received = w.history.gone.map (·.1) ++ w.conn.events
  dropped : w.conn.eventsDropped = (w.history.gone.filter (·.2 = .dropped)).length
  released : ∀ slot ∈ w.conn.pending, slot.id ∈ w.history.awaited
  awaited : w.history.awaited.Nodup
  full : maxInFlightRequests ≤ w.conn.pending.length →
    maxInFlightRequests ≤ w.history.awaited.length

/-- No id wraps around in the step. -/
def World.NotWrapping (w : World) (i : Input) : Prop := w.conn.nextId ≤ (w.step i).conn.nextId

/-- All messages can be read. -/
def Readable (polled : Polled) : Prop :=
  ∃ bodies, polled = .ok bodies ∧ ∀ body ∈ bodies, ∃ message, readMessage body = .ok message

/-- No event comes after a message that cannot be read. -/
def NoEventLost (polled : Polled) : Prop :=
  ∀ bodies, polled = .ok bodies → ∀ body ∈ unread bodies, ∀ e, readMessage body ≠ .ok (.event e)

/-- A probe in flight that is given up while its slot waits. -/
def World.GivesUp (w : World) (now : Nat) (id : UInt32) : Prop :=
  ∃ sentAt, w.heartbeat.pending = some (id, sentAt) ∧ w.heartbeat.interval ≤ now - sentAt ∧
    ∃ slot ∈ w.conn.pending, slot.id = id ∧ slot.response = none

/-- **Sound steps.**  No poll loses events after a message that cannot be read,
no blocking request ends with a failing poll, and no probe of the heartbeat is
given up while its slot waits. -/
def World.Sound (w : World) (i : Input) : Prop :=
  w.exited = false →
  match w.blocking, i with
  | some _, .requestPoll polled => Readable polled
  | none, .poll polled => NoEventLost polled
  | none, .heartbeat now _ => ∀ id, ¬ w.GivesUp now id
  | _, _ => True

/-! ## The ledger -/

/-- What connection and history keep. -/
structure Ledger (c : Connection) (h : History) : Prop where
  once : (h.delivered.map (·.id)).Nodup
  answered : ∀ r ∈ h.delivered, (r.id, r.sessionId) ∈ h.sent ∧ r ∈ h.responses
  events : h.received = h.gone.map (·.1) ++ c.events
  dropped : c.eventsDropped = (h.gone.filter (·.2 = .dropped)).length
  released : ∀ slot ∈ c.pending, slot.id ∈ h.awaited
  awaited : h.awaited.Nodup
  ids : (c.pending.map (·.id)).Nodup
  sent : ∀ slot ∈ c.pending, (slot.id, slot.sessionId) ∈ h.sent
  undelivered : ∀ slot ∈ c.pending, slot.id ∉ h.delivered.map (·.id)
  filled : ∀ slot ∈ c.pending, ∀ r, slot.response = some r →
    r.id = slot.id ∧ r.sessionId = slot.sessionId ∧ r ∈ h.responses
  bounded : ∀ s ∈ h.sent, s.1 ≤ c.nextId
  awaited_le : ∀ id ∈ h.awaited, id ≤ c.nextId

theorem Ledger.new : Ledger .new .new := by
  constructor <;> simp [Connection.new, History.new]

theorem Ledger.full {c : Connection} {h : History} (l : Ledger c h) :
    c.pending.length ≤ h.awaited.length := by
  have hsub : c.pending.map (·.id) ⊆ h.awaited := by
    intro id hid
    obtain ⟨slot, hslot, rfl⟩ := List.mem_map.mp hid
    exact l.released slot hslot
  have hlength := (List.subperm_of_subset l.ids hsub).length_le
  rwa [List.length_map] at hlength

theorem allocId_eq {c : Connection} (h : c.nextId ≤ c.allocId) : c.nextId < c.allocId := by
  unfold Connection.allocId at h ⊢
  split
  next hzero =>
    rw [if_pos hzero] at h
    have : (c.nextId + 1).toNat = 0 := by rw [hzero]; rfl
    rw [UInt32.toNat_add] at this
    have hle := UInt32.le_iff_toNat_le.mp h
    have hlt := c.nextId.toNat_lt
    have hone : (1 : UInt32).toNat = 1 := rfl
    omega
  next hzero =>
    rw [if_neg hzero] at h
    rw [UInt32.lt_iff_toNat_lt]
    rw [UInt32.le_iff_toNat_le] at h
    rw [UInt32.toNat_add] at h ⊢
    have hlt := c.nextId.toNat_lt
    have hone : (1 : UInt32).toNat = 1 := rfl
    omega

theorem Ledger.later {c : Connection} {h : History} (l : Ledger c h) {n : UInt32}
    (hn : c.nextId ≤ n) : Ledger { c with nextId := n } h :=
  { l with
    bounded := fun s hs => UInt32.le_trans (l.bounded s hs) hn
    awaited_le := fun id hid => UInt32.le_trans (l.awaited_le id hid) hn }

theorem Ledger.refused {c c' : Connection} {h : History} (l : Ledger c h)
    {sessionId : Option String} {sent : Except String Unit} {e : Error}
    (hsend : c.sendRequest sessionId sent = (c', .error e)) (hid : c.nextId ≤ c'.nextId) :
    Ledger c' h := by
  unfold Connection.sendRequest at hsend
  split at hsend
  next =>
    obtain rfl := (Prod.mk.inj hsend).1
    exact l
  next =>
    dsimp only at hsend
    split at hsend
    next =>
      obtain rfl := (Prod.mk.inj hsend).1
      exact l.later hid
    next => cases (Prod.mk.inj hsend).2

theorem sendRequest_ok {c c' : Connection} {sessionId : Option String} {sent : Except String Unit}
    {id : UInt32} (hsend : c.sendRequest sessionId sent = (c', .ok id)) :
    id = c.allocId ∧
      c' = { c with nextId := c.allocId, pending := c.pending ++ [⟨c.allocId, sessionId, none⟩] } := by
  unfold Connection.sendRequest at hsend
  split at hsend
  next => cases (Prod.mk.inj hsend).2
  next =>
    dsimp only at hsend
    split at hsend
    next => cases (Prod.mk.inj hsend).2
    next =>
      obtain ⟨rfl, hid⟩ := Prod.mk.inj hsend
      exact ⟨(Except.ok.inj hid).symm, rfl⟩

/-- A request that is sent opens a slot of its own. -/
theorem Ledger.send {c c' : Connection} {h : History} (l : Ledger c h) {sessionId : Option String}
    {sent : Except String Unit} {id : UInt32}
    (hsend : c.sendRequest sessionId sent = (c', .ok id)) (hid : c.nextId ≤ c'.nextId) :
    Ledger c' (h.send id sessionId) ∧ ∃ slot ∈ c'.pending, slot.id = id := by
  obtain ⟨rfl, rfl⟩ := sendRequest_ok hsend
  have hlt : c.nextId < c.allocId := allocId_eq hid
  have hfresh : ∀ id : UInt32, id ≤ c.nextId → id ≠ c.allocId := fun id hle heq => by
    rw [heq] at hle
    exact absurd hlt (UInt32.not_lt.mpr hle)
  have hslot : ∀ slot ∈ c.pending, slot.id ≠ c.allocId := fun slot hslot =>
    hfresh _ (l.bounded _ (l.sent slot hslot))
  refine ⟨?_, ⟨c.allocId, sessionId, none⟩, List.mem_append_right _ List.mem_cons_self, rfl⟩
  constructor
  case once => exact l.once
  case answered =>
    intro r hr
    exact ⟨List.mem_append_left _ (l.answered r hr).1, (l.answered r hr).2⟩
  case events => exact l.events
  case dropped => exact l.dropped
  case released =>
    intro slot hmem
    rcases List.mem_append.mp hmem with hmem | hmem
    · exact List.mem_cons_of_mem _ (l.released slot hmem)
    · rw [List.mem_singleton.mp hmem]
      exact List.mem_cons_self
  case awaited => exact List.nodup_cons.mpr ⟨fun hmem => hfresh _ (l.awaited_le _ hmem) rfl, l.awaited⟩
  case ids =>
    rw [List.map_append, List.nodup_append]
    refine ⟨l.ids, List.nodup_singleton _, fun a ha b hb => ?_⟩
    obtain ⟨slot, hmem, rfl⟩ := List.mem_map.mp ha
    rw [List.mem_singleton.mp hb]
    exact hslot slot hmem
  case sent =>
    intro slot hmem
    rcases List.mem_append.mp hmem with hmem | hmem
    · exact List.mem_append_left _ (l.sent slot hmem)
    · rw [List.mem_singleton.mp hmem]
      exact List.mem_append_right _ List.mem_cons_self
  case undelivered =>
    intro slot hmem
    rcases List.mem_append.mp hmem with hmem | hmem
    · exact l.undelivered slot hmem
    · rw [List.mem_singleton.mp hmem]
      intro hid
      obtain ⟨r, hr, hrid⟩ := List.mem_map.mp hid
      exact hfresh _ (l.bounded _ (l.answered r hr).1) hrid
  case filled =>
    intro slot hmem r hr
    rcases List.mem_append.mp hmem with hmem | hmem
    · exact l.filled slot hmem r hr
    · rw [List.mem_singleton.mp hmem] at hr
      cases hr
  case bounded =>
    intro s hs
    rcases List.mem_append.mp hs with hs | hs
    · exact UInt32.le_trans (l.bounded s hs) hid
    · rw [List.mem_singleton.mp hs]
      exact UInt32.le_refl _
  case awaited_le =>
    intro id hmem
    rcases List.mem_cons.mp hmem with rfl | hmem
    · exact UInt32.le_refl _
    · exact UInt32.le_trans (l.awaited_le id hmem) hid

/-- A slot that is gone, with the caller that awaited it. -/
theorem Ledger.drop {c : Connection} {h : History} (l : Ledger c h) {slot : PendingRequest}
    {rest : List PendingRequest} (hperm : (slot :: rest).Perm c.pending) :
    Ledger { c with pending := rest } (h.giveUp slot.id) := by
  have hrest : ∀ s ∈ rest, s ∈ c.pending := fun s hs => hperm.mem_iff.mp (List.mem_cons_of_mem _ hs)
  have hids : ((slot :: rest).map (·.id)).Nodup := (hperm.map _).nodup_iff.mpr l.ids
  rw [List.map_cons, List.nodup_cons] at hids
  have hne : ∀ s ∈ rest, s.id ≠ slot.id := fun s hs heq =>
    hids.1 (List.mem_map.mpr ⟨s, hs, heq⟩)
  exact
    { once := l.once
      answered := l.answered
      events := l.events
      dropped := l.dropped
      released := fun s hs => (List.mem_erase_of_ne (hne s hs)).mpr (l.released s (hrest s hs))
      awaited := l.awaited.erase _
      ids := hids.2
      sent := fun s hs => l.sent s (hrest s hs)
      undelivered := fun s hs => l.undelivered s (hrest s hs)
      filled := fun s hs => l.filled s (hrest s hs)
      bounded := l.bounded
      awaited_le := fun id hid => l.awaited_le id (List.mem_of_mem_erase hid) }

/-- A caller that gives up on a request without a slot. -/
theorem Ledger.giveUp {c : Connection} {h : History} (l : Ledger c h) {id : UInt32}
    (hid : ∀ slot ∈ c.pending, slot.id ≠ id) : Ledger c (h.giveUp id) :=
  { l with
    released := fun s hs => (List.mem_erase_of_ne (hid s hs)).mpr (l.released s hs)
    awaited := l.awaited.erase _
    awaited_le := fun id hid => l.awaited_le id (List.mem_of_mem_erase hid) }

theorem Ledger.discard {c : Connection} {h : History} (l : Ledger c h) (id : UInt32) :
    Ledger (c.discardPending id) (h.giveUp id) := by
  rcases discardPending_cases c id with ⟨hid, heq⟩ | ⟨slot, rest, rfl, hperm, heq⟩
  · rw [heq]
    exact l.giveUp hid
  · rw [heq]
    exact l.drop hperm

/-- A response that is delivered, with the slot that it was in. -/
theorem Ledger.taken {c c' : Connection} {h : History} (l : Ledger c h) {id : UInt32} {r : Response}
    (htake : c.takeResponse id = (c', some r)) : r.id = id ∧ Ledger c' (h.deliver r) := by
  obtain ⟨slot, rest, rfl, hresponse, hperm, rfl⟩ := takeResponse_some htake
  have hslot : slot ∈ c.pending := hperm.mem_iff.mp List.mem_cons_self
  obtain ⟨hid, hsession, hreceived⟩ := l.filled slot hslot r hresponse
  have hdrop := l.drop hperm
  have hids : ((slot :: rest).map (·.id)).Nodup := (hperm.map _).nodup_iff.mpr l.ids
  rw [List.map_cons, List.nodup_cons] at hids
  refine ⟨hid, ?_⟩
  rw [History.giveUp, ← hid] at hdrop
  exact
    { hdrop with
      once := by
        show ((h.delivered ++ [r]).map (·.id)).Nodup
        rw [List.map_append, List.map_singleton, List.nodup_append]
        refine ⟨l.once, List.nodup_singleton _, fun a ha b hb heq => ?_⟩
        rw [List.mem_singleton] at hb
        exact l.undelivered slot hslot (by rwa [← hid, ← hb, ← heq])
      answered := fun r' hr' => by
        rcases List.mem_append.mp hr' with hr' | hr'
        · exact l.answered r' hr'
        · rw [List.mem_singleton.mp hr', hid, hsession]
          exact ⟨l.sent slot hslot, hreceived⟩
      undelivered := fun s hs hmem => by
        rw [History.deliver, List.map_append, List.mem_append] at hmem
        rcases hmem with hmem | hmem
        · exact hdrop.undelivered s hs hmem
        · rw [List.map_singleton, List.mem_singleton, hid] at hmem
          exact hids.1 (List.mem_map.mpr ⟨s, hs, hmem⟩) }

/-! ### Arrivals -/

/-- A slot is as it was in `c`, or was filled with one of these responses. -/
def FilledBy (c : Connection) (messages : List Message) (slot : PendingRequest) : Prop :=
  ∃ before ∈ c.pending, before.id = slot.id ∧ before.sessionId = slot.sessionId ∧
    (slot.response = before.response ∨
      ∃ r, slot.response = some r ∧ r.id = slot.id ∧ r.sessionId = slot.sessionId ∧
        .response r ∈ messages)

/-- What messages do to a connection. -/
structure Routes (c c' : Connection) (messages : List Message) : Prop where
  nextId : c'.nextId = c.nextId
  ids : c'.pending.map (·.id) = c.pending.map (·.id)
  slots : ∀ slot ∈ c'.pending, FilledBy c messages slot
  events : c'.events =
    (messages.filterMap Message.event?).foldl (push defaultEventQueueLimit) c.events
  dropped : c'.eventsDropped = c.eventsDropped +
    (lostAll defaultEventQueueLimit c.events (messages.filterMap Message.event?)).length

theorem Routes.refl (c : Connection) : Routes c c [] :=
  ⟨rfl, rfl, fun slot hslot => ⟨slot, hslot, rfl, rfl, .inl rfl⟩, rfl, rfl⟩

theorem routes_one (c : Connection) (message : Message) :
    Routes c (c.route message) [message] := by
  cases message with
  | response r =>
    refine ⟨rfl, fillSlot_ids r c.pending, fun slot hslot => ?_, rfl, rfl⟩
    rcases mem_fillSlot hslot with hslot | ⟨before, hbefore, hid, hsession, rfl⟩
    · exact ⟨slot, hslot, rfl, rfl, .inl rfl⟩
    · exact ⟨before, hbefore, rfl, rfl,
        .inr ⟨r, rfl, hid.symm, hsession.symm, List.mem_singleton_self _⟩⟩
  | event e =>
    obtain ⟨hnext, hpending⟩ := enqueueEvent_rest c e
    obtain ⟨hevents, hdropped⟩ := enqueueEvent_events c e
    refine ⟨hnext, by rw [← hpending]; rfl, fun slot hslot => ?_, hevents, ?_⟩
    · exact ⟨slot, by rwa [← hpending], rfl, rfl, .inl rfl⟩
    · show (c.enqueueEvent e).eventsDropped = _ + (lost _ _ ++ []).length
      rw [List.append_nil]
      exact hdropped

theorem Routes.trans {c c' c'' : Connection} {ms ms' : List Message} (h : Routes c c' ms)
    (h' : Routes c' c'' ms') : Routes c c'' (ms ++ ms') := by
  refine ⟨h'.nextId.trans h.nextId, h'.ids.trans h.ids, fun slot hslot => ?_, ?_, ?_⟩
  · obtain ⟨mid, hmid, hid, hsession, hresponse⟩ := h'.slots slot hslot
    obtain ⟨before, hbefore, hid', hsession', hresponse'⟩ := h.slots mid hmid
    refine ⟨before, hbefore, hid'.trans hid, hsession'.trans hsession, ?_⟩
    rcases hresponse with hresponse | ⟨r, hr, hrid, hrsession, hmem⟩
    · rcases hresponse' with hresponse' | ⟨r, hr, hrid, hrsession, hmem⟩
      · exact .inl (hresponse.trans hresponse')
      · exact .inr ⟨r, hresponse.trans hr, hrid.trans hid, hrsession.trans hsession,
          List.mem_append_left _ hmem⟩
    · exact .inr ⟨r, hr, hrid, hrsession, List.mem_append_right _ hmem⟩
  · rw [h'.events, h.events, List.filterMap_append, List.foldl_append]
  · rw [h'.dropped, h.dropped, h.events, List.filterMap_append, lostAll_append, List.length_append,
      Nat.add_assoc]

theorem routeMessages_routes (c : Connection) (bodies : List Body) :
    Routes c (c.routeMessages bodies).1 (routed bodies) := by
  induction bodies generalizing c with
  | nil => exact .refl c
  | cons body bodies ih =>
    rw [Connection.routeMessages, routed]
    cases readMessage body with
    | error e => exact .refl c
    | ok message => exact (routes_one c message).trans (ih _)

/-- The messages of a poll: those that are routed, and those after a message
that cannot be read. -/
theorem messages_eq (bodies : List Body) :
    messagesOf (.ok bodies) = routed bodies ++ messagesOf (.ok (unread bodies)) := by
  induction bodies with
  | nil => rfl
  | cons body bodies ih =>
    rw [routed, unread]
    cases h : readMessage body with
    | error e => exact List.filterMap_cons_none (f := readable) (by rw [readable, h]; rfl)
    | ok message =>
      have hfirst : messagesOf (.ok (body :: bodies)) = message :: messagesOf (.ok bodies) :=
        List.filterMap_cons_some (f := readable) (by rw [readable, h]; rfl)
      rw [hfirst, ih]
      rfl

theorem poll_routes (c : Connection) (polled : Polled) :
    Routes c (c.poll polled).1 (routedOf polled) := by
  cases polled with
  | error detail => exact .refl c
  | ok bodies => exact routeMessages_routes c bodies

/-- The events that a poll loses. -/
def lostEvents (polled : Polled) : List Event :=
  match polled with
  | .error _ => []
  | .ok bodies => (messagesOf (.ok (unread bodies))).filterMap Message.event?

theorem events_eq (polled : Polled) :
    (messagesOf polled).filterMap Message.event? =
      (routedOf polled).filterMap Message.event? ++ lostEvents polled := by
  cases polled with
  | error detail => rfl
  | ok bodies =>
    rw [messages_eq, List.filterMap_append]
    rfl

theorem lostEvents_eq_nil {polled : Polled} : lostEvents polled = [] ↔ NoEventLost polled := by
  cases polled with
  | error detail => exact iff_of_true rfl fun bodies h => by cases h
  | ok bodies =>
    simp only [lostEvents, messagesOf, List.filterMap_filterMap, List.filterMap_eq_nil_iff,
      readable]
    constructor
    · intro h bodies' heq body hbody e he
      obtain rfl := Except.ok.inj heq
      have hnone := h body hbody
      rw [he] at hnone
      cases hnone
    · intro h body hbody
      cases hread : readMessage body with
      | error e => rfl
      | ok message =>
        cases message with
        | response r => rfl
        | event e => exact absurd hread (h bodies rfl body hbody e)

theorem Readable.noEventLost {polled : Polled} (h : Readable polled) : NoEventLost polled := by
  obtain ⟨bodies, rfl, hread⟩ := h
  intro bodies' heq body hbody
  obtain rfl := Except.ok.inj heq
  have hnil : unread bodies = [] := by
    clear hbody heq
    induction bodies with
    | nil => rfl
    | cons first bodies ih =>
      obtain ⟨message, hmessage⟩ := hread first List.mem_cons_self
      rw [unread, hmessage]
      exact ih fun b hb => hread b (List.mem_cons_of_mem _ hb)
  rw [hnil] at hbody
  cases hbody

/-- Messages that arrive, when no event is lost. -/
theorem Ledger.arrive {c : Connection} {h : History} (l : Ledger c h) {polled : Polled}
    (hlost : NoEventLost polled) : Ledger (c.poll polled).1 (h.arrive c.events polled) := by
  have hroutes := poll_routes c polled
  constructor
  case once => exact l.once
  case answered =>
    exact fun r hr => ⟨(l.answered r hr).1, List.mem_append_left _ (l.answered r hr).2⟩
  case events =>
    show h.received ++ _ = (h.gone ++ _).map (·.1) ++ _
    rw [events_eq, lostEvents_eq_nil.mpr hlost, List.append_nil, hroutes.events, List.map_append,
      List.map_map, l.events, List.append_assoc, List.append_assoc]
    have hsame := lostAll_append_foldl defaultEventQueueLimit c.events
      ((routedOf polled).filterMap Message.event?)
    simp only [Function.comp_def, List.map_id', hsame]
  case dropped =>
    show _ = ((h.gone ++ _).filter _).length
    rw [hroutes.dropped, l.dropped, List.filter_append, List.length_append]
    congr 1
    rw [List.filter_eq_self.mpr, List.length_map]
    intro p hp
    obtain ⟨e, -, rfl⟩ := List.mem_map.mp hp
    rfl
  case released =>
    intro slot hslot
    obtain ⟨before, hbefore, hid, -⟩ := hroutes.slots slot hslot
    exact hid ▸ l.released before hbefore
  case awaited => exact l.awaited
  case ids => exact hroutes.ids ▸ l.ids
  case sent =>
    intro slot hslot
    obtain ⟨before, hbefore, hid, hsession, -⟩ := hroutes.slots slot hslot
    exact hid ▸ hsession ▸ l.sent before hbefore
  case undelivered =>
    intro slot hslot
    obtain ⟨before, hbefore, hid, -⟩ := hroutes.slots slot hslot
    exact hid ▸ l.undelivered before hbefore
  case filled =>
    intro slot hslot r hr
    obtain ⟨before, hbefore, hid, hsession, hresponse | ⟨r', hr', hrid, hrsession, hmem⟩⟩ :=
      hroutes.slots slot hslot
    · obtain ⟨hrid, hrsession, hreceived⟩ := l.filled before hbefore r (hresponse ▸ hr)
      exact ⟨hrid.trans hid, hrsession.trans hsession, List.mem_append_left _ hreceived⟩
    · obtain rfl := Option.some.inj (hr'.symm.trans hr)
      refine ⟨hrid, hrsession, List.mem_append_right _ ?_⟩
      refine List.mem_filterMap.mpr ⟨.response r', ?_, rfl⟩
      cases polled with
      | error detail => cases hmem
      | ok bodies =>
        rw [messages_eq]
        exact List.mem_append_left _ hmem
  case bounded => exact hroutes.nextId ▸ l.bounded
  case awaited_le => exact hroutes.nextId ▸ l.awaited_le

theorem Ledger.hand {c c' : Connection} {h : History} (l : Ledger c h) {e : Event}
    (hnext : c.nextEvent = (c', some e)) : Ledger c' (h.hand e) := by
  obtain ⟨rfl, hhead⟩ := Prod.mk.inj hnext
  obtain ⟨rest, hrest⟩ := List.head?_eq_some_iff.mp hhead
  exact
    { l with
      events := by
        show h.received = (h.gone ++ [(e, Fate.handed)]).map (·.1) ++ c.events.tail
        rw [l.events, hrest, List.map_append, List.append_assoc]
        rfl
      dropped := by
        show c.eventsDropped = ((h.gone ++ [(e, Fate.handed)]).filter _).length
        rw [l.dropped, List.filter_append]
        simp }

/-! ## Steps -/

/-- What a run keeps. -/
structure World.Inv (w : World) : Prop where
  ledger : Ledger w.conn w.history
  slot : ∀ id, w.blocking = some id → ∃ slot ∈ w.conn.pending, slot.id = id

theorem World.Inv.correlated {w : World} (h : w.Inv) : w.Correlated :=
  { once := h.ledger.once
    answered := h.ledger.answered
    events := h.ledger.events
    dropped := h.ledger.dropped
    released := h.ledger.released
    awaited := h.ledger.awaited
    full := fun hfull => Nat.le_trans hfull h.ledger.full }

theorem World.Inv.of_free {w : World} (h : Ledger w.conn w.history) (hfree : w.blocking = none) :
    w.Inv :=
  ⟨h, fun id hid => by rw [hfree] at hid; cases hid⟩

/-! ### The heartbeat -/

theorem resolveProbe_rest (w : World) (now : Nat) :
    (w.resolveProbe now).1.blocking = w.blocking ∧
      (w.resolveProbe now).1.conn.nextId = w.conn.nextId := by
  unfold World.resolveProbe
  split
  next => exact ⟨rfl, rfl⟩
  next id sentAt _ =>
    split
    next conn r htake =>
      obtain ⟨slot, rest, -, -, -, rfl⟩ := takeResponse_some htake
      exact ⟨rfl, rfl⟩
    next =>
      split
      next => exact ⟨rfl, rfl⟩
      next => exact ⟨rfl, rfl⟩

theorem resolveProbe_ledger {w : World} (l : Ledger w.conn w.history) (now : Nat)
    (h : ∀ id, ¬ w.GivesUp now id) :
    Ledger (w.resolveProbe now).1.conn (w.resolveProbe now).1.history := by
  unfold World.resolveProbe
  split
  next => exact l
  next id sentAt hpending =>
    split
    next conn r htake => exact (l.taken htake).2
    next conn htake =>
      split
      next hlate =>
        have hnone := (takeResponse_none_iff id l.ids).mp (congrArg Prod.snd htake)
        exact l.giveUp fun slot hslot hid =>
          h id ⟨sentAt, hpending, hlate, slot, hslot, hid, hnone slot hslot hid⟩
      next => exact l

/-- A probe that is given up leaves its slot behind. -/
theorem resolveProbe_givesUp {w : World} (l : Ledger w.conn w.history) {now : Nat} {id : UInt32}
    (h : w.GivesUp now id) :
    (w.resolveProbe now).1.conn = w.conn ∧
      (w.resolveProbe now).1.history = w.history.giveUp id := by
  obtain ⟨sentAt, hpending, hlate, slot, hslot, hid, hresponse⟩ := h
  unfold World.resolveProbe
  rw [hpending]
  dsimp only
  cases htake : w.conn.takeResponse id with
  | mk conn response =>
    cases response with
    | none => exact ⟨by rw [if_pos hlate], by rw [if_pos hlate]⟩
    | some r =>
      have hnone := (takeResponse_none_iff id l.ids).mpr fun other hother hid' => by
        rwa [List.inj_on_of_nodup_map l.ids hother hslot (hid'.trans hid.symm)]
      rw [htake] at hnone
      cases hnone

theorem sendProbe_ledger {w : World} (l : Ledger w.conn w.history) {now : Nat}
    {sent : Except String Unit} (hid : w.conn.nextId ≤ (w.sendProbe now sent).1.conn.nextId) :
    Ledger (w.sendProbe now sent).1.conn (w.sendProbe now sent).1.history := by
  unfold World.sendProbe at hid ⊢
  split
  next hdue =>
    rw [if_pos hdue] at hid
    cases hsend : w.conn.sendRequest (some w.sessionId) sent with
    | mk conn result =>
      rw [hsend] at hid
      cases result with
      | ok id => exact (l.send hsend hid).1
      | error e => exact l.refused hsend hid
  next => exact l

/-- A fresh probe keeps the slots and opens one at most. -/
theorem sendProbe_keeps (w : World) (now : Nat) (sent : Except String Unit) :
    (∀ slot ∈ w.conn.pending, slot ∈ (w.sendProbe now sent).1.conn.pending) ∧
      ∀ id ∈ (w.sendProbe now sent).1.history.awaited, id = w.conn.allocId ∧
        (w.sendProbe now sent).1.conn.nextId = w.conn.allocId ∨ id ∈ w.history.awaited := by
  unfold World.sendProbe
  split
  next =>
    cases hsend : w.conn.sendRequest (some w.sessionId) sent with
    | mk conn result =>
      cases result with
      | ok id =>
        obtain ⟨rfl, rfl⟩ := sendRequest_ok hsend
        refine ⟨fun slot hslot => List.mem_append_left _ hslot, fun id hid => ?_⟩
        rcases List.mem_cons.mp hid with rfl | hid
        · exact .inl ⟨rfl, rfl⟩
        · exact .inr hid
      | error e =>
        refine ⟨fun slot hslot => ?_, fun id hid => .inr hid⟩
        unfold Connection.sendRequest at hsend
        split at hsend
        next =>
          obtain ⟨rfl, -⟩ := Prod.mk.inj hsend
          exact hslot
        next =>
          dsimp only at hsend
          split at hsend
          next =>
            obtain ⟨rfl, -⟩ := Prod.mk.inj hsend
            exact hslot
          next => cases (Prod.mk.inj hsend).2
  next => exact ⟨fun _ h => h, fun _ h => .inr h⟩

theorem sendProbe_blocking (w : World) (now : Nat) (sent : Except String Unit) :
    (w.sendProbe now sent).1.blocking = w.blocking := by
  unfold World.sendProbe
  repeat' split
  all_goals rfl

theorem heartbeatTick_eq (w : World) (now : Nat) (sent : Except String Unit) :
    (w.heartbeatTick now sent).conn = ((w.resolveProbe now).1.sendProbe now sent).1.conn ∧
    (w.heartbeatTick now sent).history = ((w.resolveProbe now).1.sendProbe now sent).1.history ∧
    (w.heartbeatTick now sent).blocking = w.blocking := by
  have hblocking := (sendProbe_blocking (w.resolveProbe now).1 now sent).trans
    (resolveProbe_rest w now).1
  unfold World.heartbeatTick
  dsimp only
  split
  next => exact ⟨rfl, rfl, hblocking⟩
  next => exact ⟨rfl, rfl, hblocking⟩

/-- **The heartbeat.**  A tick keeps the ledger exactly when it gives up no
probe whose slot waits. -/
theorem heartbeat_iff {w : World} (l : Ledger w.conn w.history) (hfree : w.blocking = none)
    {now : Nat} {sent : Except String Unit}
    (hid : w.conn.nextId ≤ (w.heartbeatTick now sent).conn.nextId) :
    ((∀ id, ¬ w.GivesUp now id) → (w.heartbeatTick now sent).Inv) ∧
      ((w.heartbeatTick now sent).Correlated → ∀ id, ¬ w.GivesUp now id) := by
  obtain ⟨hconn, hhistory, hblocking⟩ := heartbeatTick_eq w now sent
  have hid' : (w.resolveProbe now).1.conn.nextId ≤
      ((w.resolveProbe now).1.sendProbe now sent).1.conn.nextId := by
    rw [(resolveProbe_rest w now).2, ← hconn]
    exact hid
  constructor
  · intro h
    refine .of_free ?_ (hblocking.trans hfree)
    rw [hconn, hhistory]
    exact sendProbe_ledger (resolveProbe_ledger l now h) hid'
  · intro hcorrelated id hgives
    obtain ⟨hsame, hgiven⟩ := resolveProbe_givesUp l hgives
    obtain ⟨hslots, hawaited⟩ := sendProbe_keeps (w.resolveProbe now).1 now sent
    obtain ⟨sentAt, -, -, slot, hslot, rfl, -⟩ := hgives
    have hreleased := hcorrelated.released slot (by rw [hconn]; exact hslots slot (hsame ▸ hslot))
    rw [hhistory] at hreleased
    rcases hawaited _ hreleased with ⟨hnew, hnext⟩ | hold
    · rw [hnext] at hid'
      have hlt := allocId_eq hid'
      rw [← hnew, hsame] at hlt
      exact absurd hlt (UInt32.not_lt.mpr (l.bounded _ (l.sent slot hslot)))
    · rw [hgiven] at hold
      exact l.awaited.not_mem_erase hold

/-! ### Polls -/

/-- A poll of the client keeps the ledger exactly when it loses no event. -/
theorem polling_iff {w : World} (h : w.Inv) (polled : Polled) :
    (NoEventLost polled → (w.polling polled).Inv) ∧
      ((w.polling polled).history.received =
        (w.polling polled).history.gone.map (·.1) ++ (w.polling polled).conn.events →
        NoEventLost polled) := by
  constructor
  · intro hlost
    refine ⟨h.ledger.arrive hlost, fun id hid => ?_⟩
    obtain ⟨slot, hslot, rfl⟩ := h.slot id hid
    have hids := (poll_routes w.conn polled).ids
    have hmem : slot.id ∈ (w.conn.poll polled).1.pending.map (·.id) :=
      hids ▸ List.mem_map_of_mem hslot
    obtain ⟨slot', hslot', hid'⟩ := List.mem_map.mp hmem
    exact ⟨slot', hslot', hid'⟩
  · intro hevents
    rw [← lostEvents_eq_nil]
    have hroutes := (poll_routes w.conn polled).events
    have hold := h.ledger.events
    have hsame := lostAll_append_foldl defaultEventQueueLimit w.conn.events
      ((routedOf polled).filterMap Message.event?)
    simp only [World.polling, History.arrive, hroutes, events_eq, hold, List.map_append,
      List.map_map, Function.comp_def, List.map_id', List.append_assoc, hsame] at hevents
    simpa using hevents

theorem routeMessages_ok_iff (c : Connection) (bodies : List Body) :
    (c.routeMessages bodies).2 = .ok () ↔
      ∀ body ∈ bodies, ∃ message, readMessage body = .ok message := by
  induction bodies generalizing c with
  | nil => exact iff_of_true rfl fun _ h => absurd h List.not_mem_nil
  | cons body bodies ih =>
    rw [Connection.routeMessages, List.forall_mem_cons]
    cases hread : readMessage body with
    | error e => exact iff_of_false (fun h => by cases h) fun ⟨⟨_, h⟩, _⟩ => by cases h
    | ok message => exact (ih _).trans (and_iff_right ⟨message, rfl⟩).symm

theorem poll_ok_iff (c : Connection) (polled : Polled) :
    (c.poll polled).2 = .ok () ↔ Readable polled := by
  cases polled with
  | error detail => exact iff_of_false (fun h => by cases h) fun ⟨_, h, _⟩ => by cases h
  | ok bodies =>
    exact (routeMessages_ok_iff c bodies).trans
      ⟨fun h => ⟨bodies, rfl, h⟩, fun ⟨_, heq, h⟩ => Except.ok.inj heq ▸ h⟩

/-- **Blocking requests.**  A round of the loop keeps the ledger exactly when
all messages of its poll can be read. -/
theorem requestRound_iff {w : World} (h : w.Inv) {id : UInt32} (hblocking : w.blocking = some id)
    (polled : Polled) :
    (Readable polled → (w.requestRound id polled).Inv) ∧
      ((w.requestRound id polled).Correlated → Readable polled) := by
  have hpoll := poll_ok_iff w.conn polled
  unfold World.requestRound
  cases hresult : w.conn.poll polled with
  | mk conn result =>
    rw [hresult] at hpoll
    have hconn : (w.polling polled).conn = conn := congrArg Prod.fst hresult
    cases result with
    | error e =>
      refine ⟨fun hread => absurd (hpoll.mpr hread) (fun h => by cases h), fun hcorrelated => ?_⟩
      obtain ⟨slot, hslot, rfl⟩ := h.slot id hblocking
      have hids := (poll_routes w.conn polled).ids
      have hmem : slot.id ∈ (w.conn.poll polled).1.pending.map (·.id) :=
        hids ▸ List.mem_map_of_mem hslot
      obtain ⟨slot', hslot', hid'⟩ := List.mem_map.mp hmem
      have hreleased := hcorrelated.released slot' hslot'
      rw [hid'] at hreleased
      exact absurd hreleased h.ledger.awaited.not_mem_erase
    | ok _ =>
      refine ⟨fun hread => ?_, fun _ => hpoll.mp rfl⟩
      have hkept := (polling_iff h polled).1 hread.noEventLost
      dsimp only
      split
      next conn' r htake =>
        refine .of_free ?_ rfl
        exact (hkept.ledger.taken (hconn ▸ htake)).2
      next => exact hkept

/-! ### All steps -/

/-- A request that is sent; a blocking caller then waits for its slot. -/
theorem send_inv {w : World} (h : w.Inv) (hfree : w.blocking = none) {sessionId : Option String}
    {sent : Except String Unit} {f : World → UInt32 → World}
    (hf : ∀ w id, (f w id).conn = w.conn ∧ (f w id).history = w.history ∧
      ((f w id).blocking = w.blocking ∨ (f w id).blocking = some id))
    (hid : w.conn.nextId ≤ (w.send sessionId sent f).conn.nextId) :
    (w.send sessionId sent f).Inv := by
  unfold World.send at hid ⊢
  cases hsend : w.conn.sendRequest sessionId sent with
  | mk conn result =>
    rw [hsend] at hid
    cases result with
    | error e => exact .of_free (h.ledger.refused hsend hid) hfree
    | ok id =>
      dsimp only at hid ⊢
      obtain ⟨hconn, hhistory, hblocking⟩ :=
        hf { w with conn := conn, history := w.history.send id sessionId } id
      rw [hconn] at hid
      obtain ⟨hledger, hslot⟩ := h.ledger.send hsend hid
      refine ⟨by rw [hconn, hhistory]; exact hledger, fun id' hid' => ?_⟩
      rw [hconn]
      rcases hblocking with hblocking | hblocking
      · rw [hblocking, hfree] at hid'
        cases hid'
      · obtain rfl := Option.some.inj (hblocking.symm.trans hid')
        exact hslot

/-- **One step.**  A step keeps what a run keeps exactly when it is sound. -/
theorem step_iff {w : World} (h : w.Inv) {i : Input} (hid : w.NotWrapping i) :
    (w.Sound i → (w.step i).Inv) ∧ ((w.step i).Correlated → w.Sound i) := by
  unfold World.NotWrapping at hid
  cases hexited : w.exited with
  | true =>
    have hstep : w.step i = w := by simp [World.step, hexited]
    rw [hstep]
    exact ⟨fun _ => h, fun _ hrunning => by rw [hexited] at hrunning; cases hrunning⟩
  | false =>
    unfold World.Sound
    unfold World.step at hid ⊢
    simp only [hexited, Bool.false_eq_true, if_false, true_implies] at hid ⊢
    rcases Option.eq_none_or_eq_some w.blocking with hblocking | ⟨id, hblocking⟩
    all_goals simp only [hblocking] at hid ⊢
    case inr =>
      cases i with
      | requestPoll polled => exact requestRound_iff h hblocking polled
      | requestDeadline => exact ⟨fun _ => .of_free (h.ledger.discard id) rfl, fun _ => trivial⟩
      | _ => exact ⟨fun _ => h, fun _ => trivial⟩
    case inl =>
      cases i with
      | request sessionId sent =>
        exact ⟨fun _ => send_inv h hblocking (fun w id => ⟨rfl, rfl, .inr rfl⟩) hid, fun _ => trivial⟩
      | requestPoll polled => exact ⟨fun _ => h, fun _ => trivial⟩
      | requestDeadline => exact ⟨fun _ => h, fun _ => trivial⟩
      | sendSession sessionId sent =>
        exact ⟨fun _ => send_inv h hblocking (fun w id => ⟨rfl, rfl, .inl rfl⟩) hid, fun _ => trivial⟩
      | takeResponse id =>
        refine ⟨fun _ => ?_, fun _ => trivial⟩
        dsimp only
        split
        next conn r htake => exact .of_free (h.ledger.taken htake).2 hblocking
        next => exact h
      | poll polled =>
        exact ⟨(polling_iff h polled).1, fun hcorrelated => (polling_iff h polled).2 hcorrelated.events⟩
      | nextEvent =>
        refine ⟨fun _ => ?_, fun _ => trivial⟩
        dsimp only
        split
        next conn e hnext => exact .of_free (h.ledger.hand hnext) rfl
        next => exact h
      | heartbeat now sent =>
        exact heartbeat_iff h.ledger hblocking hid

theorem inv_new (sessionId : String) (heartbeat : HeartbeatTracker) :
    (World.new sessionId heartbeat).Inv := .of_free .new rfl

/-- **Correlation over runs.**  In a run in which no id wraps around, every step
leaves responses, events and slots accounted for exactly when every step is
sound. -/
theorem correlated_iff (sessionId : String) (heartbeat : HeartbeatTracker) (inputs : List Input)
    (hids : Runs.Along World.step World.NotWrapping (.new sessionId heartbeat) inputs) :
    Runs.Along World.step World.Sound (.new sessionId heartbeat) inputs ↔
      Runs.Along World.step (fun w i => (w.step i).Correlated) (.new sessionId heartbeat) inputs :=
  Runs.along_congr (I := World.Inv) (fun _ _ h hid => (step_iff h hid).1)
    (fun _ _ h hid => ⟨fun hsound => ((step_iff h hid).1 hsound).correlated, (step_iff h hid).2⟩)
    (inv_new sessionId heartbeat) hids

/-- The answer to a request of the page's session. -/
def pageAnswer (id : Nat) : Body :=
  .ok (.object [("id", .nat id), ("result", .object []), ("sessionId", .string "page")])

def pageEvent : Body := .ok (.object [("method", .string "Page.screencastFrame")])

def pageWorld : World := .new "page" (.new 1000 3 0)

/-- A blocking request that is answered after an event, and a request whose
answer is taken later. -/
theorem correlated_iff_twoRequests :
    Runs.Along World.step (fun w i => (w.step i).Correlated) pageWorld
      [.request (some "page") (.ok ()), .requestPoll (.ok [pageEvent, pageAnswer 1]), .nextEvent,
        .sendSession "page" (.ok ()), .poll (.ok [pageAnswer 2]), .takeResponse 2] := by
  refine (correlated_iff "page" (.new 1000 3 0) _ ?_).mp ?_
  · refine ⟨?_, ?_, ?_, ?_, ?_, ?_, trivial⟩
    all_goals exact UInt32.le_iff_toNat_le.mpr (by decide)
  · refine ⟨fun _ => trivial, fun _ => ⟨_, rfl, ?_⟩, fun _ => trivial, fun _ => trivial,
      fun _ => ?_, fun _ => trivial, trivial⟩
    · intro body hbody
      simp only [List.mem_cons, List.not_mem_nil, or_false] at hbody
      rcases hbody with rfl | rfl
      · exact ⟨_, rfl⟩
      · exact ⟨_, rfl⟩
    · intro bodies hbodies body hbody
      obtain rfl := Except.ok.inj hbodies
      cases hbody

/-- Two probes that no answer comes for, and one that is answered. -/
def missedProbes (k : Nat) : List Input :=
  [.heartbeat (6000 * k + 1000) (.ok ()), .heartbeat (6000 * k + 2000) (.ok ()),
    .heartbeat (6000 * k + 3000) (.ok ()), .heartbeat (6000 * k + 4000) (.ok ()),
    .heartbeat (6000 * k + 5000) (.ok ()), .poll (.ok [pageAnswer (3 * k + 3)]),
    .heartbeat (6000 * k + 5500) (.ok ())]

def missingProbes : List Input := (List.range 32).flatMap missedProbes

instance (w : World) (i : Input) : Decidable (w.NotWrapping i) := inferInstanceAs (Decidable (_ ≤ _))

/-- The slots of probes that were given up fill the connection: in the end the
next probe is refused, and the worker exits, while no caller awaits anything. -/
theorem probes_leak :
    Runs.Along World.step World.NotWrapping pageWorld missingProbes ∧
      ¬ Runs.Along World.step (fun w i => (w.step i).Correlated) pageWorld missingProbes ∧
      (Runs.run World.step pageWorld missingProbes).conn.pending.length = maxInFlightRequests ∧
      (Runs.run World.step pageWorld missingProbes).history.awaited = [] ∧
      (Runs.run World.step pageWorld missingProbes).exited = true := by
  refine ⟨by decide +kernel, fun h => ?_, by decide +kernel⟩
  have hfirst : (missedProbes 0).take 2 <+: missingProbes := ⟨missingProbes.drop 2, rfl⟩
  have hreleased := (h.of_initial hfirst).2.1.released
  revert hreleased
  decide +kernel

end Kwe.Cdp

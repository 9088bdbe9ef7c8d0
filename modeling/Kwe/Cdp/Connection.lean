import Kwe.Foundation.Collections
import Kwe.Foundation.Json

/-!
Requests and responses of the browser connection: the slots of the requests in
flight, the messages that the pipe delivers, and the queue of events.

The transport is what the environment decides: whether a request could be
written, and what a poll reads.
-/

namespace Kwe.Cdp

open Foundation Foundation.Collections

def defaultEventQueueLimit : Nat := 64

def maxInFlightRequests : Nat := 64

inductive Error
  /-- `WouldBlock`, "too many in-flight CDP requests". -/
  | tooManyInFlight
  /-- A failure of the transport. -/
  | transport (detail : String)
  | parseError (detail : String)
  | timeout

structure Response where
  id : UInt32
  sessionId : Option String
  result : Option Json
  error : Option Json

structure Event where
  method : String
  params : Json
  sessionId : Option String

structure PendingRequest where
  id : UInt32
  sessionId : Option String
  response : Option Response

structure Connection where
  nextId : UInt32
  pending : List PendingRequest
  events : List Event
  eventsDropped : Nat

/-- The body of a message, as `serde_json::from_slice` reads it. -/
abbrev Body := Except String Json

/-- What the transport's poll gives. -/
abbrev Polled := Except String (List Body)

inductive Message
  | response (r : Response)
  | event (e : Event)

/-! ## Reading a message -/

def getField (value : Json) (key : String) : Option Json :=
  match value with
  | .object fields => Json.get fields key
  | _ => none

def asStr : Json → Option String
  | .string s => some s
  | _ => none

def asU64 : Json → Option Nat
  | .nat n => if n < 2 ^ 64 then some n else none
  | _ => none

/-- What `route_message` reads of a body. -/
def readMessage (body : Body) : Except Error Message :=
  match body with
  | .error detail => .error (.parseError detail)
  | .ok value =>
    let sessionId := (getField value "sessionId").bind asStr
    match getField value "id" with
    | some id =>
      match asU64 id with
      | none => .error (.parseError "response id is not an integer")
      | some n =>
        if n < 2 ^ 32 then
          .ok (.response ⟨UInt32.ofNat n, sessionId, getField value "result", getField value "error"⟩)
        else .error (.parseError "response id out of range")
    | none =>
      match (getField value "method").bind asStr with
      | none => .error (.parseError "message has neither id nor method")
      | some method => .ok (.event ⟨method, (getField value "params").getD .null, sessionId⟩)

/-! ## The connection -/

namespace Connection

def new : Connection := ⟨0, [], [], 0⟩

/-- The next id: a wrapping increment that leaves out zero. -/
def allocId (c : Connection) : UInt32 := if c.nextId + 1 = 0 then 1 else c.nextId + 1

/-- `sent` is the outcome of writing the request. -/
def sendRequest (c : Connection) (sessionId : Option String) (sent : Except String Unit) :
    Connection × Except Error UInt32 :=
  if maxInFlightRequests ≤ c.pending.length then (c, .error .tooManyInFlight)
  else
    let id := c.allocId
    let c := { c with nextId := id }
    match sent with
    | .error detail => (c, .error (.transport detail))
    | .ok _ => ({ c with pending := c.pending ++ [⟨id, sessionId, none⟩] }, .ok id)

def position (c : Connection) (id : UInt32) : Option Nat := c.pending.findIdx? (·.id = id)

def takeResponse (c : Connection) (id : UInt32) : Connection × Option Response :=
  match c.position id with
  | none => (c, none)
  | some index =>
    match c.pending[index]?.bind (·.response) with
    | none => (c, none)
    | some response => ({ c with pending := swapRemove c.pending index }, some response)

def discardPending (c : Connection) (id : UInt32) : Connection :=
  match c.position id with
  | none => c
  | some index => { c with pending := swapRemove c.pending index }

def nextEvent (c : Connection) : Connection × Option Event :=
  ({ c with events := c.events.tail }, c.events.head?)

def enqueueEvent (c : Connection) (e : Event) : Connection :=
  if defaultEventQueueLimit ≤ c.events.length then
    { c with events := c.events.tail ++ [e], eventsDropped := c.eventsDropped + 1 }
  else { c with events := c.events ++ [e] }

end Connection

/-- The response is put into the first slot of its id and its session. -/
def fillSlot (r : Response) : List PendingRequest → List PendingRequest
  | [] => []
  | slot :: slots =>
    if slot.id = r.id ∧ slot.sessionId = r.sessionId then
      { slot with response := some r } :: slots
    else slot :: fillSlot r slots

namespace Connection

def route (c : Connection) : Message → Connection
  | .response r => { c with pending := fillSlot r c.pending }
  | .event e => c.enqueueEvent e

/-- The messages one after another, up to one that cannot be read. -/
def routeMessages (c : Connection) : List Body → Connection × Except Error Unit
  | [] => (c, .ok ())
  | body :: bodies =>
    match readMessage body with
    | .error e => (c, .error e)
    | .ok message => (c.route message).routeMessages bodies

def poll (c : Connection) (polled : Polled) : Connection × Except Error Unit :=
  match polled with
  | .error detail => (c, .error (.transport detail))
  | .ok bodies => c.routeMessages bodies

end Connection

/-! ## Slots -/

/-- A slot is found by its id. -/
theorem position_some {c : Connection} {id : UInt32} {index : Nat}
    (h : c.position id = some index) : ∃ slot, c.pending[index]? = some slot ∧ slot.id = id := by
  obtain ⟨hlt, hid, -⟩ := List.findIdx?_eq_some_iff_getElem.mp h
  exact ⟨c.pending[index], List.getElem?_eq_getElem hlt, by simpa using hid⟩

theorem position_none {c : Connection} {id : UInt32} (h : c.position id = none) :
    ∀ slot ∈ c.pending, slot.id ≠ id := by
  intro slot hslot
  simpa using List.findIdx?_eq_none_iff.mp h slot hslot

/-- **Taking a response.**  A response that is taken was in a slot of its id,
and that slot is gone. -/
theorem takeResponse_some {c c' : Connection} {id : UInt32} {r : Response}
    (h : c.takeResponse id = (c', some r)) :
    ∃ slot rest, slot.id = id ∧ slot.response = some r ∧ (slot :: rest).Perm c.pending ∧
      c' = { c with pending := rest } := by
  unfold Connection.takeResponse at h
  split at h
  next => cases h
  next index hindex =>
    obtain ⟨slot, hslot, hid⟩ := position_some hindex
    rw [hslot] at h
    dsimp only [Option.bind] at h
    split at h
    next => cases h
    next response hresponse =>
      obtain ⟨rfl, hr⟩ := Prod.mk.inj h
      exact ⟨slot, _, hid, hresponse.trans hr, cons_swapRemove_perm hslot, rfl⟩

theorem takeResponse_none {c c' : Connection} {id : UInt32}
    (h : c.takeResponse id = (c', none)) : c' = c := by
  unfold Connection.takeResponse at h
  split at h
  next => exact (Prod.mk.inj h).1.symm
  next =>
    split at h
    next => exact (Prod.mk.inj h).1.symm
    next => cases (Prod.mk.inj h).2

/-- Where ids are apart, a slot whose response arrived can be taken. -/
theorem takeResponse_none_iff {c : Connection} (id : UInt32)
    (hnodup : (c.pending.map (·.id)).Nodup) :
    (c.takeResponse id).2 = none ↔ ∀ slot ∈ c.pending, slot.id = id → slot.response = none := by
  unfold Connection.takeResponse
  cases hindex : c.position id with
  | none => exact iff_of_true rfl fun slot hslot hid => absurd hid (position_none hindex slot hslot)
  | some index =>
    obtain ⟨slot, hslot, hid⟩ := position_some hindex
    have hmem := List.mem_of_getElem? hslot
    simp only [hslot, Option.bind]
    cases hresponse : slot.response with
    | none =>
      refine iff_of_true rfl fun other hother hid' => ?_
      rw [List.inj_on_of_nodup_map hnodup hother hmem (hid'.trans hid.symm)]
      exact hresponse
    | some r =>
      refine iff_of_false (by simp) fun h => ?_
      rw [h slot hmem hid] at hresponse
      cases hresponse

theorem discardPending_cases (c : Connection) (id : UInt32) :
    ((∀ slot ∈ c.pending, slot.id ≠ id) ∧ c.discardPending id = c) ∨
      ∃ slot rest, slot.id = id ∧ (slot :: rest).Perm c.pending ∧
        c.discardPending id = { c with pending := rest } := by
  unfold Connection.discardPending
  cases hindex : c.position id with
  | none => exact .inl ⟨position_none hindex, rfl⟩
  | some index =>
    obtain ⟨slot, hslot, hid⟩ := position_some hindex
    exact .inr ⟨slot, _, hid, cons_swapRemove_perm hslot, rfl⟩

theorem fillSlot_ids (r : Response) (slots : List PendingRequest) :
    (fillSlot r slots).map (·.id) = slots.map (·.id) := by
  induction slots with
  | nil => rfl
  | cons slot slots ih =>
    rw [fillSlot]
    split
    next => rfl
    next => simp [ih]

/-- A slot after a response: as it was, or with the response of its own id and
session. -/
theorem mem_fillSlot {r : Response} {slots : List PendingRequest} {slot : PendingRequest}
    (h : slot ∈ fillSlot r slots) :
    slot ∈ slots ∨ ∃ before ∈ slots, before.id = r.id ∧ before.sessionId = r.sessionId ∧
      slot = { before with response := some r } := by
  induction slots with
  | nil => cases h
  | cons first slots ih =>
    rw [fillSlot] at h
    split at h
    next hsame =>
      rcases List.mem_cons.mp h with rfl | h
      · exact .inr ⟨first, List.mem_cons_self, hsame.1, hsame.2, rfl⟩
      · exact .inl (List.mem_cons_of_mem _ h)
    next =>
      rcases List.mem_cons.mp h with rfl | h
      · exact .inl List.mem_cons_self
      · rcases ih h with h | ⟨before, hbefore, hsame⟩
        · exact .inl (List.mem_cons_of_mem _ h)
        · exact .inr ⟨before, List.mem_cons_of_mem _ hbefore, hsame⟩

/-! ## Events -/

theorem enqueueEvent_events (c : Connection) (e : Event) :
    (c.enqueueEvent e).events = push defaultEventQueueLimit c.events e ∧
      (c.enqueueEvent e).eventsDropped =
        c.eventsDropped + (lost defaultEventQueueLimit c.events).length := by
  rw [length_lost (by decide)]
  unfold Connection.enqueueEvent push
  split
  next => exact ⟨rfl, rfl⟩
  next => exact ⟨rfl, rfl⟩

theorem enqueueEvent_rest (c : Connection) (e : Event) :
    (c.enqueueEvent e).nextId = c.nextId ∧ (c.enqueueEvent e).pending = c.pending := by
  unfold Connection.enqueueEvent
  split
  next => exact ⟨rfl, rfl⟩
  next => exact ⟨rfl, rfl⟩

end Kwe.Cdp
